import Parcel.Binding.Conversion
import Parcel.Proofs.Typing.Judgement

/-!
# The types of operators

Two operands meet in a type: numbers of one family in the wider of theirs, other operands in the
type that they both have. The meaning of an operator is one that is defined where its operands meet.
-/

namespace Parcel

open Code

/-! ### Numbers of one family -/

section Family

variable {left right : Ty}

lemma sameFamily_iff :
    sameFamily left right = true ↔ left.isNumeric = true ∧ left.group = right.group := by
  simp [sameFamily]

lemma Ty.isNumeric_congr (h : left.group = right.group) : left.isNumeric = right.isNumeric := by
  rw [Ty.isNumeric, Ty.isNumeric, h]

lemma sameFamily_comm (left right : Ty) : sameFamily left right = sameFamily right left := by
  rw [Bool.eq_iff_iff, sameFamily_iff, sameFamily_iff]
  constructor
  · rintro ⟨hnumeric, hgroup⟩
    exact ⟨Ty.isNumeric_congr hgroup ▸ hnumeric, hgroup.symm⟩
  · rintro ⟨hnumeric, hgroup⟩
    exact ⟨Ty.isNumeric_congr hgroup ▸ hnumeric, hgroup.symm⟩

lemma eq_of_size_eq (h : sameFamily left right = true) (hsize : left.size = right.size) :
    left = right := by
  obtain ⟨hnumeric, hgroup⟩ := sameFamily_iff.mp h
  cases left with
  | integer width =>
    cases right with
    | integer width' => cases width <;> cases width' <;> first | rfl | cases hsize
    | _ => cases hgroup
  | float =>
    cases right with
    | float => rfl
    | double => cases hsize
    | _ => cases hgroup
  | double =>
    cases right with
    | float => cases hsize
    | double => rfl
    | _ => cases hgroup
  | _ => cases hnumeric

lemma wider_comm (h : sameFamily left right = true) : wider left right = wider right left := by
  unfold wider
  rcases Nat.lt_trichotomy left.size right.size with hlt | heq | hlt
  · rw [if_pos hlt, if_neg (Nat.lt_asymm hlt)]
  · rw [if_neg (Nat.not_lt.mpr (Nat.le_of_eq heq.symm)), if_neg (Nat.not_lt.mpr (Nat.le_of_eq heq)),
      eq_of_size_eq h heq]
  · rw [if_neg (Nat.lt_asymm hlt), if_pos hlt]

lemma isNumeric_wider (h : sameFamily left right = true) :
    (wider left right).isNumeric = true := by
  obtain ⟨hnumeric, hgroup⟩ := sameFamily_iff.mp h
  unfold wider
  split
  · exact Ty.isNumeric_congr hgroup ▸ hnumeric
  · exact hnumeric

lemma Ty.formed_of_isNumeric {type : Ty} (h : type.isNumeric = true) : type.Formed := by
  cases type with
  | integer | float | double => trivial
  | _ => cases h

lemma isComparable_of_isNumeric {type : Ty} (h : type.isNumeric = true) :
    isComparable type = true := by
  cases type with
  | integer | float | double => rfl
  | _ => cases h

/-- A number becomes one of a wider type freely. -/
lemma Conversion.classify_of_lt (h : sameFamily left right = true) (hsize : left.size < right.size) :
    classify left right = .implicit := by
  obtain ⟨hnumeric, hgroup⟩ := sameFamily_iff.mp h
  have hne : left ≠ right := fun heq => Nat.ne_of_lt hsize (congrArg Ty.size heq)
  have hbySize : bySize left right = .implicit := if_pos hsize
  unfold classify
  rw [if_neg hne]
  cases left with
  | integer =>
    cases right with
    | integer => exact hbySize
    | _ => cases hgroup
  | float | double =>
    cases right with
    | float | double => exact hbySize
    | _ => cases hgroup
  | _ => cases hnumeric

end Family

/-! ### Where operands meet -/

/-- The type in which two operands meet. -/
inductive Meet : Ty → Ty → Ty → Prop
  | numbers {left right : Ty} (h : sameFamily left right = true) : Meet left right (wider left right)
  | same (type : Ty) : Meet type type type

namespace Meet

variable {left right type : Ty}

lemma symm (h : Meet left right type) : Meet right left type := by
  cases h with
  | numbers h => exact wider_comm h ▸ .numbers (sameFamily_comm left right ▸ h)
  | same => exact .same left

lemma classify_left (h : Meet left right type) :
    Conversion.classify left type = .identity ∨ Conversion.classify left type = .implicit := by
  have hself : Conversion.classify left left = .identity := if_pos rfl
  cases h with
  | numbers h =>
    unfold wider
    split
    next hsize => exact .inr (Conversion.classify_of_lt h hsize)
    next => exact .inl hself
  | same => exact .inl hself

lemma classify_right (h : Meet left right type) :
    Conversion.classify right type = .identity ∨ Conversion.classify right type = .implicit :=
  h.symm.classify_left

lemma formed (h : Meet left right type) (hleft : left.Formed) : type.Formed := by
  cases h with
  | numbers h => exact Ty.formed_of_isNumeric (isNumeric_wider h)
  | same => exact hleft

end Meet

/-! ### The meaning of operators -/

section Meaning

variable {left right : Ty} {meaning : BinaryMeaning}

variable {op : BinaryOp} {operand : Ty}

/-- The operands meet in the operand type of a meaning, and its operator gives the result type
there. -/
structure BinaryMeaning.Meets (meaning : BinaryMeaning) (left right : Ty) : Prop where
  operand : Meet left right meaning.operand
  result : meaning.op.result? meaning.operand = some meaning.result

/-- An operator on two numbers of one family; `result` is its result type. -/
lemma meets_of_numbers (result : Ty → Ty) (h : (if sameFamily left right then
      some ⟨op, wider left right, result (wider left right)⟩ else none) = some meaning)
    (hop : ∀ type, type.isNumeric = true → op.result? type = some (result type)) :
    meaning.Meets left right := by
  split at h
  next hfamily =>
    cases h
    exact ⟨.numbers hfamily, hop _ (isNumeric_wider hfamily)⟩
  next => cases h

lemma meets_of_equality
    (hop : ∀ type, op.result? type = if isComparable type then some .bool else none)
    (h : equality op left right = some meaning) : meaning.Meets left right := by
  unfold equality at h
  split at h
  next hfamily =>
    cases h
    exact ⟨.numbers hfamily, by
      rw [hop, if_pos (isComparable_of_isNumeric (isNumeric_wider hfamily))]⟩
  next =>
    split at h
    next hsame =>
      obtain ⟨rfl, hcomparable⟩ := hsame
      cases h
      exact ⟨.same left, by rw [hop, if_pos hcomparable]⟩
    next => cases h

lemma meets_of_logical (hop : op.result? .bool = some .bool)
    (h : logical op left right = some meaning) : meaning.Meets left right := by
  unfold logical at h
  split at h
  next hbool =>
    obtain ⟨rfl, rfl⟩ := hbool
    cases h
    exact ⟨.same .bool, hop⟩
  next => cases h

/-- **Operands meet where a binary operator is defined**, and its result is what it gives there. -/
theorem meets_of_resolveBinary {op : Syntax.BinaryOp}
    (h : resolveBinary op left right = some meaning) : meaning.Meets left right := by
  cases op with
  | add =>
    simp only [resolveBinary] at h
    split at h
    next hstring =>
      obtain ⟨rfl, rfl⟩ := hstring
      cases h
      exact ⟨.same .string, rfl⟩
    next => exact meets_of_numbers id h fun _ hnumeric => if_pos hnumeric
  | sub | mul | div | rem => exact meets_of_numbers id h fun _ hnumeric => if_pos hnumeric
  | lt | gt | le | ge => exact meets_of_numbers (fun _ => .bool) h fun _ hnumeric => if_pos hnumeric
  | eq | ne => exact meets_of_equality (fun _ => rfl) h
  | and | or => exact meets_of_logical rfl h

lemma BinaryOp.formed_of_result? {result : Ty} (h : op.result? operand = some result)
    (hoperand : operand.Formed) : result.Formed := by
  cases op with
  | add | sub | mul | div | rem | concat | eq | ne | lt | gt | le | ge | and | or =>
    simp only [BinaryOp.result?] at h
    split at h
    · cases h
      first | exact hoperand | trivial
    · cases h

lemma result?_of_resolveBinary {op : Syntax.BinaryOp}
    (h : resolveBinary op left right = some meaning) (hleft : left.Formed) :
    meaning.op.result? meaning.operand = some meaning.result ∧ meaning.operand.Formed ∧
      meaning.result.Formed := by
  obtain ⟨hmeet, hresult⟩ := meets_of_resolveBinary h
  have hoperand := hmeet.formed hleft
  exact ⟨hresult, hoperand, BinaryOp.formed_of_result? hresult hoperand⟩

lemma result?_of_resolveUnary {op : Syntax.UnaryOp} {meaning : UnaryMeaning}
    (h : resolveUnary op operand = some meaning) :
    meaning.op.result? operand = some meaning.result := by
  cases op with
  | neg | plus | not =>
    simp only [resolveUnary] at h
    split at h
    next hoperand =>
      cases h
      simp [UnaryOp.result?, hoperand]
    next => cases h

lemma numbers_comm (given : Ty → Option BinaryMeaning) {other other' : Option BinaryMeaning}
    (hother : other = other') (left right : Ty) :
    (if sameFamily left right then given (wider left right) else other) =
      if sameFamily right left then given (wider right left) else other' := by
  rw [sameFamily_comm right left]
  split
  next h => rw [wider_comm h]
  next => exact hother

lemma arithmetic_comm (op : BinaryOp) (left right : Ty) :
    arithmetic op left right = arithmetic op right left :=
  numbers_comm (fun type => some ⟨op, type, type⟩) rfl left right

lemma equality_comm (op : BinaryOp) (left right : Ty) :
    equality op left right = equality op right left := by
  refine numbers_comm (fun type => some ⟨op, type, .bool⟩) ?_ left right
  by_cases hsame : left = right
  · rw [hsame]
  · rw [if_neg fun h => hsame h.1, if_neg fun h => hsame h.1.symm]

lemma logical_comm (op : BinaryOp) (left right : Ty) :
    logical op left right = logical op right left := by
  unfold logical
  simp only [and_comm]

/-- **The meaning of an operator does not depend on the order of its operands.** -/
theorem resolveBinary_comm (op : Syntax.BinaryOp) (left right : Ty) :
    resolveBinary op left right = resolveBinary op right left := by
  cases op with
  | add => simp only [resolveBinary, and_comm, arithmetic_comm .add left right]
  | sub | mul | div | rem => exact arithmetic_comm _ left right
  | lt | gt | le | ge => exact numbers_comm (fun type => some ⟨_, type, .bool⟩) rfl left right
  | eq | ne => exact equality_comm _ left right
  | and | or => exact logical_comm _ left right

end Meaning

end Parcel
