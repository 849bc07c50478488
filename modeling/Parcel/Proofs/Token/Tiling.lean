import Parcel.Proofs.Token.Pattern

/-!
# Tokens and gaps tile a text

A text that is scanned is a gap, a token, a gap, and so on: gaps are made of blanks and comments,
and every token is the longest match where it stands. The tiling of a text is what the scanner
computes, up to the place where no token starts.
-/

namespace Parcel.Token

open List

variable {c : Char} {rest follow tail slice : List Char} {lexemes : List Lexeme}

/-- Blanks, line ends and comments, before what follows them. A comment reaches to the end of its
line. -/
inductive Gap : List Char → List Char → Prop
  | nil (follow : List Char) : Gap [] follow
  | blank {c gap follow} : isSeparator c = true → Gap gap follow → Gap (c :: gap) follow
  | comment {comment gap follow} : IsComment comment → (∀ c ∈ (gap ++ follow).head?, c = '\n') →
    Gap gap follow → Gap (comment ++ gap) follow

/-- A text that starts at the byte offset `start`, and before `tail`, is tiled by lexemes and gaps:
each token is denoted by its own slice of the text, which is the longest match at its start. -/
inductive Tiles (tail : List Char) : Nat → List Char → List Lexeme → Prop
  | done {start gap} : Gap gap tail → Tiles tail start gap []
  | token {start gap slice rest lexeme lexemes} : Gap gap (slice ++ rest ++ tail) →
    Denotes slice lexeme.token → Longest slice (rest ++ tail) →
    lexeme.span.start = start + byteLength gap →
    lexeme.span.stop = lexeme.span.start + byteLength slice →
    Tiles tail lexeme.span.stop rest lexemes →
    Tiles tail start (gap ++ slice ++ rest) (lexeme :: lexemes)

/-- No text at the start of this one denotes a token or is skipped. -/
def Stuck (text : List Char) : Prop :=
  ∀ slice, slice <+: text → (∀ token, ¬ Denotes slice token) ∧ ¬ Skipped slice

/-- What the scan of a text comes to: a tiling of it, or a tiling of what stands before the place
where it is stuck. -/
inductive Scanned (start : Nat) : List Char → Except LexError (List Lexeme) → Prop
  | ok {text lexemes} : Tiles [] start text lexemes → Scanned start text (.ok lexemes)
  | error {before bad after lexemes e} : Tiles (bad ++ after) start before lexemes → bad ≠ [] →
    Stuck (bad ++ after) → e.found = String.ofList bad → e.span.start = start + byteLength before →
    e.span.stop = e.span.start + byteLength bad →
    Scanned start (before ++ (bad ++ after)) (.error e)

/-! ### Lengths -/

@[simp] lemma byteLength_nil : byteLength [] = 0 := rfl

@[simp] lemma byteLength_cons (c : Char) (text : List Char) :
    byteLength (c :: text) = c.utf8Size + byteLength text := rfl

@[simp] lemma byteLength_append (text more : List Char) :
    byteLength (text ++ more) = byteLength text + byteLength more := by
  induction text with
  | nil => simp
  | cons c text ih => simp [ih, Nat.add_assoc]

/-! ### Gaps -/

lemma startsComment_iff : startsComment c rest = true ↔ c = '/' ∧ ∃ more, rest = '/' :: more := by
  simp [startsComment, head?_eq_some_iff]

/-- What follows may be cut off anywhere. -/
lemma Gap.of_append {gap : List Char} (h : Gap gap (follow ++ tail)) : Gap gap follow := by
  generalize htext : follow ++ tail = text at h
  induction h with
  | nil => exact .nil follow
  | blank hc _ ih => exact .blank hc (ih htext)
  | @comment comment gap text hcomment hline _ ih =>
    subst htext
    refine .comment hcomment (fun c hc => hline c ?_) (ih rfl)
    rw [← append_assoc, head?_append, hc]
    rfl

lemma scanFrom_gap {gap : List Char} (h : Gap gap follow) (start : Nat) :
    scanFrom start (gap ++ follow) = scanFrom (start + byteLength gap) follow := by
  induction h generalizing start with
  | nil => rfl
  | blank hc _ ih =>
    rw [cons_append, scanFrom, if_pos hc, ih, byteLength_cons, Nat.add_assoc]
  | @comment comment gap follow hcomment hline _ ih =>
    obtain ⟨body, rfl, hbody⟩ := hcomment
    have htake : ('/' :: body ++ (gap ++ follow)).takeWhile (· ≠ '\n') = '/' :: body := by
      have hpart : ∀ c ∈ '/' :: body, decide (c ≠ '\n') = true := by simpa using hbody
      rw [takeWhile_append_of_pos hpart, takeWhile_eq_nil, append_nil]
      intro c hc
      simpa using hline c hc
    have hstarts : startsComment '/' ('/' :: body ++ (gap ++ follow)) = true :=
      startsComment_iff.mpr ⟨rfl, _, rfl⟩
    rw [append_assoc, cons_append, scanFrom, if_neg (by decide), if_pos hstarts, htake]
    dsimp only
    rw [drop_left, ih, byteLength_append ('/' :: '/' :: body), Nat.add_assoc]

/-! ### Tokens -/

lemma Longest.of_append {text after : List Char} (h : Longest text (after ++ tail)) :
    Longest text after :=
  fun more hmore hne => h more (hmore.trans (prefix_append _ _)) hne

lemma scanFrom_token {token : Token} (h : Denotes slice token) (hlongest : Longest slice rest)
    (start : Nat) :
    scanFrom start (slice ++ rest) = match scanFrom (start + byteLength slice) rest with
      | .ok lexemes => .ok (⟨token, ⟨start, start + byteLength slice⟩⟩ :: lexemes)
      | .error e => .error e := by
  obtain ⟨c, more, rfl, hc, hslash⟩ := h.exists_cons
  have hcomment : startsComment c (more ++ rest) = false := by
    rw [Bool.eq_false_iff, Ne, startsComment_iff]
    rintro ⟨rfl, after, hafter⟩
    obtain rfl := hslash rfl
    rw [nil_append] at hafter
    subst hafter
    exact (hlongest ['/'] ⟨after, rfl⟩ (by simp)).2 (.inr ⟨[], rfl, by simp⟩)
  rw [cons_append, scanFrom, if_neg (by simp [hc]), if_neg (by simp [hcomment]),
    first_of_longest h hlongest]
  cases hrest : scanFrom (start + byteLength (c :: more)) rest <;>
    simp only [take_left, drop_left, hrest]

/-- **A text with a tiling is scanned**, and gives that tiling. -/
theorem scanFrom_of_tiles {text : List Char} {start : Nat} (h : Tiles tail start text lexemes) :
    scanFrom start text = .ok lexemes := by
  induction h with
  | @done start gap hgap =>
    have hend : Gap gap [] := Gap.of_append hgap
    rw [← append_nil gap, scanFrom_gap hend, scanFrom]
  | @token start gap slice rest lexeme lexemes hgap hdenotes hlongest hstart hstop _ ih =>
    obtain ⟨token, span⟩ := lexeme
    rw [append_assoc, scanFrom_gap hgap.of_append, ← hstart,
      scanFrom_token hdenotes hlongest.of_append, ← hstop, ih]

lemma scan_ofList (text : List Char) : scan (String.ofList text) = scanFrom 0 text := by
  rw [scan, String.toList_ofList]

/-! ### From the scanner to the tiling -/

section Prepend

variable {gap text : List Char} {start : Nat}

variable {result : Except LexError (List Lexeme)}

lemma Tiles.prepend (h : Tiles tail (start + byteLength gap) text lexemes)
    (hgap : ∀ more follow, more ++ follow = text ++ tail → Gap more follow →
      Gap (gap ++ more) follow) : Tiles tail start (gap ++ text) lexemes := by
  cases h with
  | done hdone => exact .done (hgap _ _ rfl hdone)
  | @token _ more slice rest _ _ hmore hdenotes hlongest hstart hstop hrest =>
    rw [← append_assoc, ← append_assoc]
    refine .token (hgap _ _ (by simp) hmore) hdenotes hlongest ?_ hstop hrest
    rw [hstart, byteLength_append, Nat.add_assoc]

lemma Scanned.prepend (h : Scanned (start + byteLength gap) text result)
    (hgap : ∀ more follow, more ++ follow = text → Gap more follow → Gap (gap ++ more) follow) :
    Scanned start (gap ++ text) result := by
  cases h with
  | ok htiles => exact .ok (htiles.prepend (by simpa using hgap))
  | error htiles hbad hstuck hfound hstart hstop =>
    rw [← append_assoc]
    refine .error (htiles.prepend hgap) hbad hstuck hfound ?_ hstop
    rw [hstart, byteLength_append, Nat.add_assoc]

lemma Scanned.token {token : Token} (hdenotes : Denotes slice token)
    (hlongest : Longest slice text) (h : Scanned (start + byteLength slice) text result) :
    Scanned start (slice ++ text) (match result with
      | .ok lexemes => .ok (⟨token, ⟨start, start + byteLength slice⟩⟩ :: lexemes)
      | .error e => .error e) := by
  have hcons {rest tail : List Char} {lexemes : List Lexeme} (hlongest : Longest slice (rest ++ tail))
      (htiles : Tiles tail (start + byteLength slice) rest lexemes) :
      Tiles tail start (slice ++ rest) (⟨token, ⟨start, start + byteLength slice⟩⟩ :: lexemes) :=
    .token (.nil _) hdenotes hlongest rfl rfl htiles
  cases h with
  | ok htiles =>
    exact .ok (hcons (by simpa using hlongest) htiles)
  | error htiles hbad hstuck hfound hstart hstop =>
    rw [← append_assoc]
    refine .error (hcons hlongest htiles) hbad hstuck hfound ?_ hstop
    rw [hstart, byteLength_append, Nat.add_assoc]

end Prepend

lemma stuck_of_first {n : Nat} (h : first c rest = .error n) (hc : isSeparator c = false)
    (hcomment : startsComment c rest = false) : Stuck (c :: rest) := by
  rintro slice ⟨after, hslice⟩
  constructor
  · intro token hdenotes
    obtain ⟨d, more, rfl, -⟩ := hdenotes.exists_cons
    obtain ⟨rfl, rfl⟩ := List.cons.inj hslice
    obtain ⟨token', extra, hfirst, -⟩ := reaches_of_denotes hdenotes after
    cases h.symm.trans hfirst
  · rintro (⟨hne, hblank⟩ | ⟨body, rfl, -⟩)
    · obtain ⟨d, more, rfl⟩ := exists_cons_of_ne_nil hne
      obtain ⟨rfl, rfl⟩ := List.cons.inj hslice
      rw [hblank d mem_cons_self] at hc
      cases hc
    · obtain ⟨rfl, rfl⟩ := List.cons.inj hslice
      cases hcomment

lemma isComment_of_startsComment (h : startsComment c rest = true) :
    IsComment (c :: rest.takeWhile (· ≠ '\n')) := by
  obtain ⟨rfl, more, rfl⟩ := startsComment_iff.mp h
  refine ⟨more.takeWhile (· ≠ '\n'), rfl, fun d hd => ?_⟩
  simpa using all_eq_true.mp all_takeWhile d hd

lemma head?_after_line (rest : List Char) :
    ∀ c ∈ (rest.drop (rest.takeWhile (· ≠ '\n')).length).head?, c = '\n' := by
  induction rest with
  | nil => simp
  | cons d rest ih =>
    by_cases hd : d = '\n'
    · simp [hd]
    · simpa [hd] using ih

/-- **Scanning a text tiles it**, up to its end or to the place where the scan is stuck. -/
theorem scanned_scanFrom (start : Nat) (text : List Char) :
    Scanned start text (scanFrom start text) := by
  -- A token that was found stands before the scan of the rest, whether that goes through or not.
  have hfound {start : Nat} {c : Char} {rest : List Char} {token : Token} {n : Nat}
      (hfirst : first c rest = .ok (token, n)) (hc : ¬ isSeparator c = true)
      (hcomment : ¬ startsComment c rest = true) {result : Except LexError (List Lexeme)}
      (h : Scanned (start + byteLength (c :: rest.take n)) (rest.drop n) result) :=
    Scanned.token (denotes_of_first hfirst).2
      (longest_of_first hfirst (by simpa using hc) (by simpa using hcomment)) h
  simp only [cons_append, take_append_drop] at hfound
  fun_induction scanFrom start text with
  | case1 => exact .ok (.done (.nil _))
  | case2 start c rest hc ih =>
    have hrest : Scanned (start + byteLength [c]) rest _ := ih
    exact hrest.prepend fun _ _ _ hmore => .blank hc hmore
  | case3 start c rest hc hcomment comment ih =>
    have hline : rest = comment ++ rest.drop comment.length :=
      prefix_iff_eq_append.mp (List.takeWhile_prefix _) |>.symm
    have hscanned := ih.prepend fun more follow hrest hmore =>
      Gap.comment (isComment_of_startsComment hcomment) (hrest ▸ head?_after_line rest) hmore
    rwa [cons_append, ← hline] at hscanned
  | case4 _ _ _ hc hcomment _ _ hfirst _ _ hrest ih | case5 _ _ _ hc hcomment _ _ hfirst _ _ hrest ih =>
    exact hfound hfirst hc hcomment (hrest ▸ ih)
  | case6 start c rest hc hcomment n hfirst found =>
    have hrest : c :: rest = [] ++ (found ++ rest.drop n) := by simp [found]
    have hstuck := stuck_of_first hfirst (by simpa using hc) (by simpa using hcomment)
    rw [hrest] at hstuck ⊢
    exact .error (.done (.nil _)) (by simp [found]) hstuck rfl rfl rfl

end Parcel.Token
