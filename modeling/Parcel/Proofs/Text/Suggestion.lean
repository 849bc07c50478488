import Mathlib.Data.Prod.Lex
import Mathlib.Data.String.Basic
import Parcel.Text.Suggestion

/-!
# Suggestions

The candidates are put in order, those that are not close enough to a name are left out, and the
first one of the closest is suggested. So it is the least by its distance and then by its text; and
it depends on which candidates there are, and not on their order or number.
-/

namespace Parcel.Text

variable {fold : String → String} {name found : String} {candidates candidates' : List String}

/-! ### The order of texts -/

lemma perm_insertInOrder (text : String) (texts : List String) :
    (insertInOrder text texts).Perm (text :: texts) := by
  induction texts with
  | nil => exact .refl _
  | cons next rest ih =>
    rw [insertInOrder]
    split
    · exact .refl _
    · exact (ih.cons next).trans (.swap _ _ _)

lemma pairwise_insertInOrder {text : String} {texts : List String}
    (h : texts.Pairwise (· ≤ ·)) : (insertInOrder text texts).Pairwise (· ≤ ·) := by
  induction texts with
  | nil => exact List.pairwise_singleton _ _
  | cons next rest ih =>
    obtain ⟨hnext, hrest⟩ := List.pairwise_cons.mp h
    rw [insertInOrder]
    split
    next hle =>
      refine List.pairwise_cons.mpr ⟨List.forall_mem_cons.mpr ⟨hle, fun other hother => ?_⟩, h⟩
      exact le_trans hle (hnext other hother)
    next hle =>
      refine List.pairwise_cons.mpr ⟨fun other hother => ?_, ih hrest⟩
      rcases List.mem_cons.mp ((perm_insertInOrder text rest).mem_iff.mp hother) with rfl | hother
      · exact le_of_not_ge hle
      · exact hnext other hother

/-- Putting texts in order keeps all of them. -/
lemma perm_inOrder (texts : List String) : (inOrder texts).Perm texts := by
  induction texts with
  | nil => exact .refl _
  | cons text texts ih => exact (perm_insertInOrder text _).trans (ih.cons text)

lemma pairwise_inOrder (texts : List String) : (inOrder texts).Pairwise (· ≤ ·) := by
  induction texts with
  | nil => exact .nil
  | cons text texts ih => exact pairwise_insertInOrder ih

/-- **There is one order of texts**: whatever puts them in order gives the same list. -/
theorem eq_inOrder {sorted texts : List String} (hperm : sorted.Perm texts)
    (hsorted : sorted.Pairwise (· ≤ ·)) : sorted = inOrder texts :=
  (hperm.trans (perm_inOrder texts).symm).eq_of_pairwise (fun _ _ _ _ => le_antisymm) hsorted
    (pairwise_inOrder texts)

/-! ### The first of the closest -/

/-- Of entries whose texts are in order, the first one of those with the least distance is the least
by distance and then by text. -/
lemma minOn?_of_pairwise {l : List (Nat × String)} (h : l.Pairwise (·.2 ≤ ·.2)) :
    (l = [] ∧ l.minOn? (·.1) = none) ∨
      ∃ best ∈ l, l.minOn? (·.1) = some best ∧ ∀ other ∈ l, toLex best ≤ toLex other := by
  induction l with
  | nil => exact .inl ⟨rfl, rfl⟩
  | cons first rest ih =>
    obtain ⟨hfirst, hrest⟩ := List.pairwise_cons.mp h
    right
    rw [List.minOn?_cons]
    obtain ⟨rfl, hnone⟩ | ⟨best, hbest, hsome, hleast⟩ := ih hrest
    · rw [hnone]
      exact ⟨first, List.mem_cons_self, rfl, List.forall_mem_singleton.mpr le_rfl⟩
    · rw [hsome, Option.elim_some]
      by_cases hle : first.1 ≤ best.1
      · -- the first one is as close, and its text comes before the others
        rw [minOn_eq_left hle]
        refine ⟨first, List.mem_cons_self, rfl, List.forall_mem_cons.mpr ⟨le_rfl, ?_⟩⟩
        intro other hother
        have hdistance : first.1 ≤ other.1 := by
          refine le_trans hle ?_
          rcases Prod.Lex.le_iff.mp (hleast other hother) with hlt | ⟨heq, -⟩
          · exact le_of_lt hlt
          · exact le_of_eq heq
        rcases lt_or_eq_of_le hdistance with hlt | heq
        · exact Prod.Lex.le_iff.mpr (.inl hlt)
        · exact Prod.Lex.le_iff.mpr (.inr ⟨heq, hfirst other hother⟩)
      · rw [minOn_eq_right hle]
        refine ⟨best, List.mem_cons_of_mem _ hbest, rfl, List.forall_mem_cons.mpr ⟨?_, hleast⟩⟩
        exact Prod.Lex.le_iff.mpr (.inl (not_le.mp hle))

/-- **The closest is found**, if there is any. -/
theorem minOn?_eq_some_iff {l : List (Nat × String)} (h : l.Pairwise (·.2 ≤ ·.2))
    {found : Nat × String} : l.minOn? (·.1) = some found ↔
      found ∈ l ∧ ∀ other ∈ l, toLex found ≤ toLex other := by
  obtain ⟨rfl, -⟩ | ⟨best, hbest, hsome, hleast⟩ := minOn?_of_pairwise h
  · simp
  · rw [hsome, Option.some.injEq]
    constructor
    · rintro rfl
      exact ⟨hbest, hleast⟩
    · rintro ⟨hfound, hother⟩
      exact toLex.injective (le_antisymm (hleast found hfound) (hother best hbest))

/-! ### What is suggested -/

/-- A candidate that may be suggested for a name: it is another one, and close enough to it. -/
structure Close (fold : String → String) (name : String) (candidates : List String)
    (candidate : String) : Prop where
  mem : candidate ∈ candidates
  other : candidate ≠ name
  near : editDistance (fold name) (fold candidate) ≤ closeness name

lemma mem_measured {entry : Nat × String} : entry ∈ measured fold name (inOrder candidates) ↔
    Close fold name candidates entry.2 ∧ entry.1 = editDistance (fold name) (fold entry.2) := by
  simp only [measured, List.mem_filter, List.mem_map, decide_eq_true_eq,
    (perm_inOrder candidates).mem_iff]
  constructor
  · rintro ⟨⟨candidate, ⟨hmem, hother⟩, rfl⟩, hnear⟩
    exact ⟨⟨hmem, hother, hnear⟩, rfl⟩
  · rintro ⟨⟨hmem, hother, hnear⟩, hdistance⟩
    exact ⟨⟨entry.2, ⟨hmem, hother⟩, Prod.ext hdistance.symm rfl⟩, hdistance ▸ hnear⟩

/-- Neither the filters nor the distances change the order of the candidates. -/
lemma pairwise_measured (fold : String → String) (name : String) (candidates : List String) :
    (measured fold name (inOrder candidates)).Pairwise (·.2 ≤ ·.2) := by
  refine List.Pairwise.filter _ (List.pairwise_map.mpr ?_)
  exact (pairwise_inOrder candidates).filter _

/-- The closest candidate is suggested, and of equally close ones the first in the order of
texts. -/
lemma closestBy_eq_some_iff : closestBy fold name candidates = some found ↔
    Close fold name candidates found ∧ ∀ other, Close fold name candidates other →
      editDistance (fold name) (fold found) < editDistance (fold name) (fold other) ∨
      editDistance (fold name) (fold found) = editDistance (fold name) (fold other) ∧
        found ≤ other := by
  simp only [closestBy, firstClosest, Option.map_eq_some_iff, mem_measured, Prod.Lex.le_iff,
    minOn?_eq_some_iff (pairwise_measured fold name candidates), ofLex_toLex]
  constructor
  · rintro ⟨entry, ⟨⟨hclose, hdistance⟩, hleast⟩, rfl⟩
    refine ⟨hclose, fun other hother => ?_⟩
    rw [← hdistance]
    exact hleast (editDistance (fold name) (fold other), other) ⟨hother, rfl⟩
  · rintro ⟨hclose, hleast⟩
    refine ⟨(editDistance (fold name) (fold found), found), ⟨⟨hclose, rfl⟩, ?_⟩, rfl⟩
    rintro entry ⟨hother, hdistance⟩
    rw [hdistance]
    exact hleast entry.2 hother

lemma closestBy_eq_none_iff : closestBy fold name candidates = none ↔
    ∀ candidate, ¬ Close fold name candidates candidate := by
  rw [closestBy, firstClosest, Option.map_eq_none_iff]
  obtain ⟨hnil, hnone⟩ | ⟨best, hbest, hsome, -⟩ :=
    minOn?_of_pairwise (pairwise_measured fold name candidates)
  · refine iff_of_true hnone fun candidate hclose => ?_
    have hmem : (editDistance (fold name) (fold candidate), candidate) ∈
        measured fold name (inOrder candidates) := mem_measured.mpr ⟨hclose, rfl⟩
    rw [hnil] at hmem
    cases hmem
  · refine iff_of_false (by rw [hsome]; exact Option.some_ne_none _) fun h => ?_
    exact h best.2 (mem_measured.mp hbest).1

/-- **A suggestion depends only on which candidates there are.** -/
theorem closestBy_congr (h : ∀ candidate, candidate ∈ candidates' ↔ candidate ∈ candidates) :
    closestBy fold name candidates' = closestBy fold name candidates := by
  have hclose (candidate : String) :
      Close fold name candidates' candidate ↔ Close fold name candidates candidate := by
    constructor
    · exact fun hc => ⟨(h candidate).mp hc.mem, hc.other, hc.near⟩
    · exact fun hc => ⟨(h candidate).mpr hc.mem, hc.other, hc.near⟩
  refine Option.ext fun found => ?_
  simp only [closestBy_eq_some_iff, hclose]

lemma closest_perm (name : String) (h : candidates'.Perm candidates) :
    closest name candidates' = closest name candidates :=
  closestBy_congr fun _ => h.mem_iff

end Parcel.Text
