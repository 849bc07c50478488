import Mathlib.Order.Bounds.Basic
import Mathlib.Data.List.Basic
import Parcel.Text.EditDistance

/-!
# The least number of edits

An edit inserts, deletes or replaces one character of a text, wherever it stands. The distance that
is found row by row is the least number of edits in a row that turn the one text into the other.

The entries of a row belong to longer and longer prefixes. So the recurrence that they obey is one
over texts that are read from their ends, and the prefixes stand in it backwards; to turn both texts
around changes nothing in the number of edits between them.

## Main results

* `Text.isRow_foldl_next` — the rows hold what the recurrence gives for the prefixes.
* `Text.recurrence_le_of_edits`, `Text.edits_recurrence` — and that is the least number of
  edits.
* `Text.editDistance_least_edits` — the distance is the least number of edits, and a metric.
-/

namespace Parcel.Text

open List

variable {first second third : List Char} {n m : Nat} (text : List Char)

/-- One text becomes another when one character is inserted, deleted or replaced. -/
inductive Edit : List Char → List Char → Prop
  | insert (before : List Char) (c : Char) (after : List Char) :
      Edit (before ++ after) (before ++ c :: after)
  | delete (before : List Char) (c : Char) (after : List Char) :
      Edit (before ++ c :: after) (before ++ after)
  | replace (before : List Char) (c d : Char) (after : List Char) :
      Edit (before ++ c :: after) (before ++ d :: after)

/-- One text becomes another by so many edits in a row. -/
inductive Edits : Nat → List Char → List Char → Prop
  | refl (text : List Char) : Edits 0 text text
  | step {n : Nat} {first second third} : Edits n first second → Edit second third →
    Edits (n + 1) first third

/-! ### Edits in a row -/

lemma Edit.symm (h : Edit first second) : Edit second first := by
  cases h with
  | insert before c after => exact .delete before c after
  | delete before c after => exact .insert before c after
  | replace before c d after => exact .replace before d c after

lemma Edit.reverse (h : Edit first second) : Edit first.reverse second.reverse := by
  cases h with
  | insert before c after => simpa using Edit.insert after.reverse c before.reverse
  | delete before c after => simpa using Edit.delete after.reverse c before.reverse
  | replace before c d after => simpa using Edit.replace after.reverse c d before.reverse

/-- The same edit behind one more character. -/
lemma Edit.cons (c : Char) (h : Edit first second) : Edit (c :: first) (c :: second) := by
  cases h with
  | insert before d after => exact .insert (c :: before) d after
  | delete before d after => exact .delete (c :: before) d after
  | replace before d e after => exact .replace (c :: before) d e after

lemma Edits.trans (h : Edits n first second) (h' : Edits m second third) :
    Edits (n + m) first third := by
  induction h' with
  | refl => exact h
  | step _ hedit ih => exact .step (ih h) hedit

lemma Edits.symm (h : Edits n first second) : Edits n second first := by
  induction h with
  | refl text => exact .refl text
  | @step n _ _ _ _ hedit ih =>
    rw [Nat.add_comm]
    exact (Edits.step (.refl _) hedit.symm).trans ih

lemma Edits.reverse (h : Edits n first second) : Edits n first.reverse second.reverse := by
  induction h with
  | refl => exact .refl _
  | step _ hedit ih => exact .step ih hedit.reverse

lemma Edits.cons (c : Char) (h : Edits n first second) :
    Edits n (c :: first) (c :: second) := by
  induction h with
  | refl => exact .refl _
  | step _ hedit ih => exact .step ih (hedit.cons c)

lemma edits_zero_iff : Edits 0 first second ↔ first = second := by
  constructor
  · rintro ⟨⟩
    rfl
  · rintro rfl
    exact .refl _

lemma edits_reverse_iff : Edits n first.reverse second.reverse ↔ Edits n first second := by
  constructor
  · intro h
    simpa using h.reverse
  · exact Edits.reverse

/-- Of two ways to the same text the shorter one. -/
lemma Edits.min (h : Edits n first second) (h' : Edits m first second) :
    Edits (min n m) first second := by
  rcases Nat.le_total n m with hle | hle
  · rwa [Nat.min_eq_left hle]
  · rwa [Nat.min_eq_right hle]

/-- A text is written character by character. -/
lemma edits_nil_length : Edits text.length [] text := by
  induction text with
  | nil => exact .refl _
  | cons c text ih => exact .step ih (.insert [] c text)

/-! ### The recurrence -/

/-- The distance by its recurrence: the first characters are matched or replaced, or one of them is
deleted or inserted. -/
def recurrence : List Char → List Char → Nat
  | [], second => second.length
  | first, [] => first.length
  | c :: first, d :: second =>
    min (min (recurrence first second + if c = d then 0 else 1) (recurrence first (d :: second) + 1))
      (recurrence (c :: first) second + 1)
termination_by first second => first.length + second.length

@[simp] lemma recurrence_nil_left : recurrence [] text = text.length := by
  rw [recurrence]

@[simp] lemma recurrence_nil_right : recurrence text [] = text.length := by
  cases text with
  | nil => rw [recurrence]
  | cons c text =>
    rw [recurrence]
    exact cons_ne_nil c text

lemma recurrence_cons_cons (c d : Char) (first second : List Char) :
    recurrence (c :: first) (d :: second) =
      min (min (recurrence first second + if c = d then 0 else 1)
        (recurrence first (d :: second) + 1)) (recurrence (c :: first) second + 1) := by
  rw [recurrence]

lemma recurrence_self : recurrence text text = 0 := by
  induction text with
  | nil => simp
  | cons c text ih => simp [recurrence_cons_cons, ih]

lemma edits_recurrence (first second : List Char) :
    Edits (recurrence first second) first second := by
  fun_induction recurrence first second with
  | case1 second => exact edits_nil_length second
  | case2 first _ => exact (edits_nil_length first).symm
  | case3 c first d second ih ih' ih'' =>
    have hmatch : Edits (recurrence first second + if c = d then 0 else 1) (c :: first)
        (d :: second) := by
      split
      next hcd =>
        subst hcd
        exact ih.cons c
      next => exact .step (ih.cons c) (.replace [] c d second)
    have hdelete : Edits (recurrence first (d :: second) + 1) (c :: first) (d :: second) := by
      rw [Nat.add_comm]
      exact (Edits.step (.refl _) (.delete [] c first)).trans ih'
    have hinsert : Edits (recurrence (c :: first) second + 1) (c :: first) (d :: second) :=
      .step ih'' (.insert [] d second)
    exact (hmatch.min hdelete).min hinsert

/-! ### One edit changes the recurrence by one at most -/

lemma recurrence_cons_le (first : List Char) (d : Char) (second : List Char) :
    recurrence first (d :: second) ≤ recurrence first second + 1 := by
  cases first with
  | nil => simp
  | cons =>
    rw [recurrence_cons_cons]
    exact min_le_right _ _

lemma recurrence_le_cons (first : List Char) (d : Char) (second : List Char) :
    recurrence first second ≤ recurrence first (d :: second) + 1 := by
  induction first with
  | nil =>
    simp only [recurrence_nil_left, length_cons]
    omega
  | cons c first =>
    have hdelete : recurrence (c :: first) second ≤ recurrence first second + 1 := by
      cases second with
      | nil => simp
      | cons =>
        rw [recurrence_cons_cons]
        exact le_trans (min_le_left _ _) (min_le_right _ _)
    rw [recurrence_cons_cons]
    omega

lemma recurrence_replace_le (first : List Char) (d e : Char) (second : List Char) :
    recurrence first (e :: second) ≤ recurrence first (d :: second) + 1 := by
  induction first with
  | nil => simp
  | cons =>
    rw [recurrence_cons_cons, recurrence_cons_cons]
    split <;> split <;> omega

/-- What holds of two texts for every first one holds of them behind one more character. -/
lemma recurrence_cons_le_of_forall
    (h : ∀ first, recurrence first third ≤ recurrence first second + 1) (d : Char)
    (first : List Char) : recurrence first (d :: third) ≤ recurrence first (d :: second) + 1 := by
  induction first with
  | nil => simpa using h []
  | cons c first =>
    have hmatch := h first
    have hinsert := h (c :: first)
    rw [recurrence_cons_cons, recurrence_cons_cons]
    omega

lemma recurrence_le_of_edit (h : Edit second third) (first : List Char) :
    recurrence first third ≤ recurrence first second + 1 := by
  cases h with
  | insert before c after =>
    induction before generalizing first with
    | nil => exact recurrence_cons_le first c after
    | cons d before ih => exact recurrence_cons_le_of_forall ih d first
  | delete before c after =>
    induction before generalizing first with
    | nil => exact recurrence_le_cons first c after
    | cons d before ih => exact recurrence_cons_le_of_forall ih d first
  | replace before c e after =>
    induction before generalizing first with
    | nil => exact recurrence_replace_le first c e after
    | cons d before ih => exact recurrence_cons_le_of_forall ih d first

lemma recurrence_le_of_edits (h : Edits n first second) : recurrence first second ≤ n := by
  induction h with
  | refl => rw [recurrence_self]
  | step _ hedit ih => exact le_trans (recurrence_le_of_edit hedit _) (Nat.add_le_add_right ih 1)

/-! ### The rows -/

/-- A row has the distances of a text to the first prefixes of the second one, up to a length;
prefixes stand backwards. -/
structure IsRow (text second : List Char) (n : Nat) (row : Array Nat) : Prop where
  size : row.size = second.length + 1
  entry : ∀ j ≤ n, row.getD j 0 = recurrence text (second.take j).reverse

/-- The row of the empty prefix. -/
lemma isRow_start (second : List Char) :
    IsRow [] second second.length (Rows.start second).previous where
  size := Array.size_range
  entry j hj := by
    have hlt : j < second.length + 1 := Nat.lt_succ_of_le hj
    simp [Rows.start, Array.getD, hlt, hj]

/-- **One entry**: a row in which the entries up to `j` are written gets the next one. -/
theorem IsRow.writeEntry {c d : Char} {text second : List Char} {previous current : Array Nat} {j : Nat}
    (hprevious : IsRow text second second.length previous) (h : IsRow (c :: text) second j current)
    (hd : second[j]? = some d) :
    IsRow (c :: text) second (j + 1) (writeEntry c previous current (d, j)) := by
  obtain ⟨hj, hget⟩ := List.getElem?_eq_some_iff.mp hd
  have hsize : j + 1 < current.size := h.size ▸ Nat.succ_lt_succ hj
  refine ⟨by rw [Text.writeEntry, Array.size_setIfInBounds, h.size], fun k hk => ?_⟩
  rcases Nat.lt_or_eq_of_le hk with hk | rfl
  · rw [Text.writeEntry, Array.getD_eq_getD_getElem?,
      Array.getElem?_setIfInBounds_ne (Nat.ne_of_gt hk), ← Array.getD_eq_getD_getElem?]
    exact h.entry k (Nat.le_of_lt_succ hk)
  · have htake : (second.take (j + 1)).reverse = d :: (second.take j).reverse := by
      rw [take_add_one, hd, Option.toList_some, reverse_append]
      rfl
    rw [Text.writeEntry, Array.getD_eq_getD_getElem?, Array.getElem?_setIfInBounds_self_of_lt hsize,
      Option.getD_some, htake, recurrence_cons_cons, hprevious.entry j (Nat.le_of_lt hj),
      hprevious.entry (j + 1) hj, h.entry j (Nat.le_refl j), htake]

/-- **One row**: it is written entry by entry over an old one. -/
theorem IsRow.writeRow {c : Char} {text second : List Char} {previous current : Array Nat}
    (hprevious : IsRow text second second.length previous)
    (hsize : current.size = second.length + 1) :
    IsRow (c :: text) second second.length (writeRow second previous current text.length c) := by
  have hfold (seen rest : List Char) (hsplit : second = seen ++ rest) (row : Array Nat)
      (hrow : IsRow (c :: text) second seen.length row) :
      IsRow (c :: text) second second.length
        ((rest.zipIdx seen.length).foldl (Text.writeEntry c previous) row) := by
    induction rest generalizing seen row with
    | nil =>
      obtain rfl : second = seen := by rw [hsplit, append_nil]
      exact hrow
    | cons d rest ih =>
      have hd : second[seen.length]? = some d := by
        rw [hsplit, getElem?_append_right (Nat.le_refl _), Nat.sub_self]
        rfl
      have hnext := ih (seen ++ [d]) (by rw [hsplit, append_assoc]; rfl) _
        (by rw [length_append]; exact hprevious.writeEntry hrow hd)
      rwa [length_append] at hnext
  refine hfold [] second rfl _ ⟨by rw [Array.size_setIfInBounds, hsize], fun j hj => ?_⟩
  obtain rfl := Nat.le_zero.mp hj
  have hpos : 0 < current.size := hsize ▸ Nat.succ_pos _
  rw [Array.getD_eq_getD_getElem?, Array.getElem?_setIfInBounds_self_of_lt hpos]
  simp

/-- **All rows**: after the whole first text, the row that was written last is its row. -/
theorem isRow_foldl_next (first second : List Char) :
    IsRow first.reverse second second.length
      (first.zipIdx.foldl (Rows.next second) (Rows.start second)).previous := by
  have hfold (rest text : List Char) (rows : Rows)
      (hprevious : IsRow text second second.length rows.previous)
      (hsize : rows.current.size = second.length + 1) :
      IsRow (rest.reverse ++ text) second second.length
        ((rest.zipIdx text.length).foldl (Rows.next second) rows).previous := by
    induction rest generalizing text rows with
    | nil => exact hprevious
    | cons c rest ih =>
      rw [reverse_cons, append_assoc]
      exact ih (c :: text) _ (hprevious.writeRow hsize) hprevious.size
  have hstart := hfold first [] (Rows.start second) (isRow_start second) Array.size_replicate
  rwa [append_nil] at hstart

lemma editDistance_eq (first second : String) :
    editDistance first second = recurrence first.toList.reverse second.toList.reverse := by
  rw [editDistance]
  split
  next h =>
    -- one of the names is empty, and the other one is as far as it is long
    simp only [List.isEmpty_iff] at h
    rcases h with h | h <;> simp [h]
  next =>
    rw [(isRow_foldl_next _ _).entry _ (Nat.le_refl _), take_length]

/-! ### The distance -/

lemma isLeast_editDistance (first second : String) :
    IsLeast {n | Edits n first.toList second.toList} (editDistance first second) := by
  rw [editDistance_eq]
  constructor
  · exact edits_reverse_iff.mp (edits_recurrence _ _)
  · intro n hn
    exact recurrence_le_of_edits (Edits.reverse hn)

/-- **The distance of two texts is the least number of edits** that turn the one into the other. So
it is zero for equal texts alone, symmetric, and no longer than by way of a third text.

**Proof sketch.** The last entry of the last row is what the recurrence gives, `editDistance_eq`.
There are as many edits as that, `edits_recurrence`; and since one edit changes the recurrence by
one at most, there are no fewer, `recurrence_le_of_edits`. -/
theorem editDistance_least_edits (first second : String) :
    IsLeast {n | Edits n first.toList second.toList} (editDistance first second) ∧
    (editDistance first second = 0 ↔ first = second) ∧
    editDistance first second = editDistance second first ∧
    ∀ third, editDistance first third ≤ editDistance first second + editDistance second third := by
  obtain ⟨hedits, hleast⟩ := isLeast_editDistance first second
  obtain ⟨hedits', hleast'⟩ := isLeast_editDistance second first
  refine ⟨⟨hedits, hleast⟩, ⟨fun hzero => ?_, fun heq => ?_⟩, ?_, fun third => ?_⟩
  · rw [Set.mem_ofPred_eq, hzero, edits_zero_iff, String.toList_inj] at hedits
    exact hedits
  · subst heq
    exact Nat.le_zero.mp (hleast (Edits.refl _))
  · exact le_antisymm (hleast (Edits.symm hedits')) (hleast' (Edits.symm hedits))
  · obtain ⟨hmore, -⟩ := isLeast_editDistance second third
    exact (isLeast_editDistance first third).2 (Edits.trans hedits hmore)

example : editDistance "kitten" "sitting" = 3 := by decide +kernel

end Parcel.Text
