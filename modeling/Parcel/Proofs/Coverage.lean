import Mathlib
import Parcel.Proofs.Token.Tiling

/-!
# The tokens of a source cover it

The spans of the tokens cut the source into slices, each of which denotes its token and is the
longest match at its start. What stands before, between and after them is made of blanks and
comments. Where a source cannot be scanned this holds of the text before the place that is reported.

## Main results

* `Token.scan_covers` — the lexemes of a source cover it, up to its end or to what is no token.
-/

namespace Parcel

/-- The span cuts the source into what stands before it, its slice and what stands after it. Its
ends are byte offsets between two characters. -/
structure Span.Cuts (span : Span) (source before slice after : String) : Prop where
  source_eq : source = before ++ slice ++ after
  start_eq : span.start = before.utf8ByteSize
  stop_eq : span.stop = (before ++ slice).utf8ByteSize

namespace Token

variable {text : List Char} {before gap tail : String} {lexemes : List Lexeme}

/-- The spans from `start` to `stop` that the lexemes leave: before, between and after them. -/
def gaps (start stop : Nat) : List Lexeme → List Span
  | [] => [⟨start, stop⟩]
  | lexeme :: lexemes => ⟨start, lexeme.span.start⟩ :: gaps lexeme.span.stop stop lexemes

/-- From the offset `start` on, the lexemes and the gaps they leave cover the source, which stands
before `tail`. -/
structure Covers (start : Nat) (source tail : String) (lexemes : List Lexeme) : Prop where
  nonempty : ∀ lexeme ∈ lexemes, lexeme.span.start < lexeme.span.stop
  within : ∀ lexeme ∈ lexemes, start ≤ lexeme.span.start ∧ lexeme.span.stop ≤ source.utf8ByteSize
  ordered : lexemes.Pairwise fun earlier later => earlier.span.stop ≤ later.span.start
  /-- Each token is the one its own slice denotes, and no longer match starts there. -/
  slices : ∀ lexeme ∈ lexemes, ∃ before slice after, lexeme.span.Cuts source before slice after ∧
    (∀ token, Denotes slice.toList token ↔ token = lexeme.token) ∧
    Longest slice.toList (after ++ tail).toList
  /-- All else is blanks and comments. -/
  blanks : ∀ span ∈ gaps start source.utf8ByteSize lexemes, ∃ before gap after,
    span.Cuts source before gap after ∧ Gap gap.toList (after ++ tail).toList

lemma utf8ByteSize_ofList (text : List Char) :
    (String.ofList text).utf8ByteSize = byteLength text := by
  rw [String.utf8ByteSize_ofList]
  induction text with
  | nil => rfl
  | cons c text ih => rw [String.utf8Len_cons, byteLength_cons, ih, Nat.add_comm]

lemma byteLength_pos (h : text ≠ []) : 0 < byteLength text := by
  obtain ⟨c, more, rfl⟩ := List.exists_cons_of_ne_nil h
  have hc := c.utf8Size_pos
  rw [byteLength_cons]
  omega

lemma Covers.done (h : Gap gap.toList tail.toList) :
    Covers before.utf8ByteSize (before ++ gap) tail [] where
  nonempty := by simp
  within := by simp
  ordered := .nil
  slices := by simp
  blanks := by
    intro span hspan
    obtain rfl := List.mem_singleton.mp hspan
    exact ⟨before, gap, "", ⟨by simp, rfl, rfl⟩, by simpa using h⟩

lemma Covers.token {slice rest : String} {lexeme : Lexeme}
    (hgap : Gap gap.toList (slice ++ rest ++ tail).toList)
    (hdenotes : Denotes slice.toList lexeme.token)
    (hlongest : Longest slice.toList (rest ++ tail).toList)
    (hstart : lexeme.span.start = (before ++ gap).utf8ByteSize)
    (hstop : lexeme.span.stop = (before ++ gap ++ slice).utf8ByteSize)
    (h : Covers lexeme.span.stop (before ++ gap ++ slice ++ rest) tail lexemes) :
    Covers before.utf8ByteSize (before ++ gap ++ slice ++ rest) tail (lexeme :: lexemes) := by
  have hslice : 0 < slice.utf8ByteSize := by
    obtain ⟨c, more, hcons, -⟩ := hdenotes.exists_cons
    rw [← slice.ofList_toList, utf8ByteSize_ofList]
    exact byteLength_pos (by simp [hcons])
  have hsizes : before.utf8ByteSize ≤ lexeme.span.start ∧ lexeme.span.start < lexeme.span.stop ∧
      lexeme.span.stop ≤ (before ++ gap ++ slice ++ rest).utf8ByteSize := by
    simp only [hstart, hstop, String.utf8ByteSize_append]
    omega
  have hcuts : lexeme.span.Cuts (before ++ gap ++ slice ++ rest) (before ++ gap) slice rest :=
    ⟨rfl, hstart, hstop⟩
  constructor
  · rw [List.forall_mem_cons]
    exact ⟨hsizes.2.1, h.nonempty⟩
  · rw [List.forall_mem_cons]
    refine ⟨⟨hsizes.1, hsizes.2.2⟩, fun later hlater => ⟨?_, (h.within later hlater).2⟩⟩
    have hfrom := (h.within later hlater).1
    omega
  · exact .cons (fun later hlater => (h.within later hlater).1) h.ordered
  · rw [List.forall_mem_cons]
    refine ⟨⟨before ++ gap, slice, rest, hcuts, fun token => ⟨fun ht => ?_, ?_⟩, hlongest⟩, h.slices⟩
    · exact ht.unique hdenotes
    · rintro rfl
      exact hdenotes
  · rw [gaps, List.forall_mem_cons]
    refine ⟨⟨before, gap, slice ++ rest, ⟨?_, rfl, hstart⟩, hgap⟩, h.blanks⟩
    rw [String.append_assoc]

lemma Tiles.covers {tail : List Char} {start : Nat} (h : Tiles tail start text lexemes)
    (before : String) (hbefore : start = before.utf8ByteSize) :
    Covers start (before ++ String.ofList text) (String.ofList tail) lexemes := by
  induction h generalizing before with
  | done hgap =>
    subst hbefore
    exact .done (by simpa using hgap)
  | @token start gap slice rest lexeme lexemes hgap hdenotes hlongest hstart hstop _ ih =>
    subst hbefore
    have hstart' : lexeme.span.start = (before ++ String.ofList gap).utf8ByteSize := by
      rw [String.utf8ByteSize_append, utf8ByteSize_ofList, hstart]
    have hstop' : lexeme.span.stop =
        (before ++ String.ofList gap ++ String.ofList slice).utf8ByteSize := by
      rw [String.utf8ByteSize_append, utf8ByteSize_ofList slice, ← hstart', hstop]
    have hcovers := ih _ hstop'
    rw [String.ofList_append, String.ofList_append, ← String.append_assoc, ← String.append_assoc]
    exact .token (by simpa using hgap) (by simpa using hdenotes) (by simpa using hlongest)
      hstart' hstop' hcovers

/-- **The tokens of a source cover it.** Where a source is scanned, the spans are in order and
apart, each cuts out a slice that denotes its token and is the longest match at its start, and
blanks and comments make up the rest. Where it is not, this holds of the text before the span that
is reported: it is scanned, and after it no token and nothing that is skipped starts. -/
theorem scan_covers (source : String) :
    (∀ lexemes, scan source = .ok lexemes → Covers 0 source "" lexemes) ∧
    ∀ e, scan source = .error e → ∃ before bad after, e.span.Cuts source before bad after ∧
      e.span.start < e.span.stop ∧ e.found = bad ∧ Stuck (bad ++ after).toList ∧
      ∃ lexemes, scan before = .ok lexemes ∧ Covers 0 before (bad ++ after) lexemes := by
  obtain ⟨text, rfl⟩ : ∃ text, source = String.ofList text := ⟨_, source.ofList_toList.symm⟩
  have hscanned := scanned_scanFrom 0 text
  rw [scan_ofList]
  constructor
  · intro lexemes hscan
    rw [hscan] at hscanned
    cases hscanned with
    | ok htiles => simpa using htiles.covers "" rfl
  · intro e hscan
    rw [hscan] at hscanned
    cases hscanned with
    | @error before bad after lexemes _ htiles hbad hstuck hfound hstart hstop =>
      have hcovers := htiles.covers "" rfl
      rw [String.empty_append, String.ofList_append] at hcovers
      refine ⟨String.ofList before, String.ofList bad, String.ofList after, ⟨?_, ?_, ?_⟩, ?_, hfound,
        ?_, lexemes, ?_, hcovers⟩
      · rw [String.ofList_append, String.ofList_append, String.append_assoc]
      · rw [hstart, utf8ByteSize_ofList, Nat.zero_add]
      · rw [hstop, hstart, ← String.ofList_append, utf8ByteSize_ofList, byteLength_append,
          Nat.zero_add]
      · have hpos := byteLength_pos hbad
        omega
      · rwa [← String.ofList_append, String.toList_ofList]
      · rw [scan_ofList, scanFrom_of_tiles htiles]

/-- A source with characters of two bytes, and one that ends inside a literal: the backslash at its
end escapes nothing. -/
theorem scan_covers_accented :
    (∃ lexemes, scan "x<-\"é\\\"\" // ü\n<=1.5" = .ok lexemes ∧ lexemes.length = 5 ∧
      Covers 0 "x<-\"é\\\"\" // ü\n<=1.5" "" lexemes) ∧
    ∃ e, scan "x // ü\n\"é\\" = .error e ∧ e.span = ⟨8, 11⟩ ∧
      ∃ before bad after, e.span.Cuts "x // ü\n\"é\\" before bad after ∧
        e.span.start < e.span.stop ∧ e.found = bad ∧ Stuck (bad ++ after).toList ∧
        ∃ lexemes, scan before = .ok lexemes ∧ Covers 0 before (bad ++ after) lexemes := by
  have hscan : scan "x<-\"é\\\"\" // ü\n<=1.5" = .ok [⟨.ident "x", ⟨0, 1⟩⟩, ⟨.mark .arrow, ⟨1, 3⟩⟩,
      ⟨.text "é\"", ⟨3, 9⟩⟩, ⟨.mark .lessEqual, ⟨16, 18⟩⟩, ⟨.number "1.5", ⟨18, 21⟩⟩] := by
    cbv
  have hbad : scan "x // ü\n\"é\\" = .error ⟨"\"é", ⟨8, 11⟩⟩ := by
    cbv
  exact ⟨⟨_, hscan, rfl, (scan_covers _).1 _ hscan⟩, _, hbad, rfl, (scan_covers _).2 _ hbad⟩

end Token

end Parcel
