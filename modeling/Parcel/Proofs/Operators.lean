import Parcel.Proofs.Typing.Heap
import Parcel.Proofs.Typing.Operator

/-!
# Operators do what their types say

The meaning of an operator is found from the types of its operands; the machine applies operators to
values. Both agree: operands are converted freely to the type in which they meet, and for values of
that type the machine gives a value of the result type. Only the division of an integer by zero
fails.

## Main results

* `Value.cause_of_binary`, `Value.cause_of_unary` — why operators fail.
* `Heap.binary_of_result?`, `Heap.unary_of_result?` — operators on values of their types.
* `operators_agree` — all meanings agree with the machine.
-/

namespace Parcel

open Code

namespace Value

/-- A value as the right operand of an operator on a type makes it divide an integer by zero. -/
def DividesByZero (op : BinaryOp) (operand : Ty) (right : Value) : Prop :=
  (op = .div ∨ op = .rem) ∧ (∃ width, operand = .integer width) ∧ right.integer? = some 0

/-! ### Why operators fail -/

section Causes

variable {op : BinaryOp} {cause : FaultCause}

lemma cause_of_compareEquality {equal : Bool} (h : compareEquality op equal = .error cause) :
    cause.ofTyping = true := by
  unfold compareEquality at h
  split at h
  · cases h
  · cases h
  · cases h
    rfl

lemma cause_of_compareNumbers {equal less greater : Bool}
    (h : compareNumbers op equal less greater = .error cause) : cause.ofTyping = true := by
  unfold compareNumbers at h
  split at h
  · cases h
  · cases h
    rfl

lemma cause_of_integerBinary {width : Width} {a b : Int}
    (h : integerBinary op width a b = .error cause) : cause.ofTyping = true ∨
      cause = .divisionByZero ∧ (op = .div ∨ op = .rem) ∧ b = 0 := by
  unfold integerBinary at h
  split at h
  · split at h
    next hzero =>
      cases h
      obtain ⟨hdivides, hb⟩ := Bool.and_eq_true_iff.mp hzero
      refine .inr ⟨rfl, ?_, of_decide_eq_true hb⟩
      cases op with
      | div => exact .inl rfl
      | rem => exact .inr rfl
      | _ => cases hdivides
    next => cases h
  · exact .inl (cause_of_compareNumbers h)

lemma cause_of_floatBinary {a b : Float32} (h : floatBinary op a b = .error cause) :
    cause.ofTyping = true := by
  unfold floatBinary at h
  split at h
  case h_6 => exact cause_of_compareNumbers h
  all_goals cases h

lemma cause_of_doubleBinary {a b : Float} (h : doubleBinary op a b = .error cause) :
    cause.ofTyping = true := by
  unfold doubleBinary at h
  split at h
  case h_6 => exact cause_of_compareNumbers h
  all_goals cases h

lemma cause_of_boolBinary {a b : Bool} (h : boolBinary op a b = .error cause) :
    cause.ofTyping = true := by
  unfold boolBinary at h
  split at h
  case h_3 => exact cause_of_compareEquality h
  all_goals cases h

lemma cause_of_stringBinary {a b : String} (h : stringBinary op a b = .error cause) :
    cause.ofTyping = true := by
  unfold stringBinary at h
  split at h
  · cases h
  · exact cause_of_compareEquality h

/-- A binary operator fails because its operands are not of its types, or because it divides an
integer by zero. -/
lemma cause_of_binary {left right : Value} (h : binary op left right = .error cause) :
    cause.ofTyping = true ∨ cause = .divisionByZero ∧ (op = .div ∨ op = .rem) ∧
      (∃ n, left = .integer n) ∧ right.integer? = some 0 := by
  unfold binary at h
  split at h
  case h_1 a b =>
    split at h
    · refine (cause_of_integerBinary h).imp_right fun ⟨hcause, hop, hb⟩ => ?_
      exact ⟨hcause, hop, ⟨a, rfl⟩, congrArg some hb⟩
    · cases h
      exact .inl rfl
  · exact .inl (cause_of_floatBinary h)
  · exact .inl (cause_of_doubleBinary h)
  · exact .inl (cause_of_boolBinary h)
  · exact .inl (cause_of_stringBinary h)
  · exact .inl (cause_of_compareEquality h)
  · exact .inl (cause_of_compareEquality h)
  · cases h
    exact .inl rfl

/-- A unary operator fails because its operand is not of its type. -/
lemma cause_of_unary {op : UnaryOp} {v : Value} (h : unary op v = .error cause) :
    cause.ofTyping = true := by
  unfold unary at h
  split at h
  case h_8 =>
    cases h
    rfl
  all_goals cases h

end Causes

end Value

/-! ### Operators on values of their types -/

namespace Heap

variable {heap : Heap} {operand result : Ty}

/-- **A binary operator on values of a type that it is for**: it fails if it divides an integer by
zero, and gives a value of its result type otherwise. -/
theorem binary_of_result? {op : BinaryOp} (hop : op.result? operand = some result) {left right : Value}
    (hleft : heap.typeOf? left = some operand) (hright : heap.typeOf? right = some operand) :
    (right.DividesByZero op operand → Value.binary op left right = .error .divisionByZero) ∧
      (¬ right.DividesByZero op operand →
        ∃ v, Value.binary op left right = .ok v ∧ heap.typeOf? v = some result) := by
  constructor
  · rintro ⟨hdivides, ⟨width, rfl⟩, hzero⟩
    obtain ⟨a, rfl, rfl⟩ := exists_integer hleft
    obtain ⟨b, rfl, hwidth⟩ := exists_integer hright
    have hb : b.val = 0 := Option.some.inj hzero
    rw [Value.binary, if_pos hwidth.symm, hb]
    rcases hdivides with rfl | rfl
    · rfl
    · rfl
  · intro hzero
    have hyields := yields_binary hleft hright hop
    cases h : Value.binary op left right with
    | ok v =>
      rw [h] at hyields
      exact ⟨v, rfl, hyields⟩
    | error =>
      rw [h] at hyields
      rcases Value.cause_of_binary h with htyping | ⟨-, hdivides, ⟨n, rfl⟩, hright⟩
      · cases htyping.symm.trans hyields
      · exact absurd ⟨hdivides, ⟨n.width, (Option.some.inj hleft).symm⟩, hright⟩ hzero

lemma unary_of_result? {op : UnaryOp} (hop : op.result? operand = some result) {v : Value}
    (hv : heap.typeOf? v = some operand) :
    ∃ w, v.unary op = .ok w ∧ heap.typeOf? w = some result := by
  have hyields := yields_unary hv hop
  cases h : v.unary op with
  | ok w =>
    rw [h] at hyields
    exact ⟨w, rfl, hyields⟩
  | error =>
    rw [h] at hyields
    cases (Value.cause_of_unary h).symm.trans hyields

end Heap

/-! ### The meanings of operators -/

/-- The machine does what the meaning of a binary operator says: operands of these types are
converted freely, and of values of the operand type it makes a value of the result type, unless it
divides an integer by zero. -/
structure BinaryMeaning.Agrees (meaning : BinaryMeaning) (left right : Ty) : Prop where
  left : Conversion.classify left meaning.operand = .identity ∨
    Conversion.classify left meaning.operand = .implicit
  right : Conversion.classify right meaning.operand = .identity ∨
    Conversion.classify right meaning.operand = .implicit
  fails : ∀ (heap : Heap) l r, heap.typeOf? l = some meaning.operand →
    heap.typeOf? r = some meaning.operand → r.DividesByZero meaning.op meaning.operand →
    Value.binary meaning.op l r = .error .divisionByZero
  gives : ∀ (heap : Heap) l r, heap.typeOf? l = some meaning.operand →
    heap.typeOf? r = some meaning.operand → ¬ r.DividesByZero meaning.op meaning.operand →
    ∃ v, Value.binary meaning.op l r = .ok v ∧ heap.typeOf? v = some meaning.result

/-- The machine does what the meaning of a unary operator says: of a value of the operand type it
makes a value of the result type. -/
def UnaryMeaning.Agrees (meaning : UnaryMeaning) (operand : Ty) : Prop :=
  ∀ (heap : Heap) v, heap.typeOf? v = some operand →
    ∃ w, v.unary meaning.op = .ok w ∧ heap.typeOf? w = some meaning.result

lemma BinaryMeaning.Meets.agrees {meaning : BinaryMeaning} {left right : Ty}
    (h : meaning.Meets left right) : meaning.Agrees left right where
  left := h.operand.classify_left
  right := h.operand.classify_right
  fails _ _ _ hl hr := (Heap.binary_of_result? h.result hl hr).1
  gives _ _ _ hl hr := (Heap.binary_of_result? h.result hl hr).2

/-- **Operators do what their types say.** For operands of whatever types: a binary operator has the
same meaning in both orders of its operands, and the machine does what each meaning says. -/
theorem operators_agree :
    (∀ op left right, resolveBinary op left right = resolveBinary op right left ∧
      ∀ meaning, resolveBinary op left right = some meaning → meaning.Agrees left right) ∧
    ∀ op operand meaning, resolveUnary op operand = some meaning → meaning.Agrees operand := by
  refine ⟨fun op left right => ⟨resolveBinary_comm op left right, fun meaning h => ?_⟩,
    fun op operand meaning h heap v hv => ?_⟩
  · exact (meets_of_resolveBinary h).agrees
  · exact Heap.unary_of_result? (result?_of_resolveUnary h) hv

/-- A `byte` divided by a `long` is divided as a `long`; the least number divided by minus one is a
`long` again, and only zero makes the division fail. -/
theorem operators_agree_long_division :
    let long (n : Int) : Value := .integer (Word.wrap .long n)
    let least := Width.long.least
    resolveBinary .div .byte .long = some ⟨.div, .long, .long⟩ ∧
      resolveBinary .div .long .byte = some ⟨.div, .long, .long⟩ ∧
      (∃ v, Value.binary .div (long least) (long (-1)) = .ok v ∧
        Heap.empty.typeOf? v = some .long) ∧
      Value.binary .div (long least) (long 0) = .error .divisionByZero ∧
      resolveUnary .neg .long = some ⟨.negate, .long⟩ ∧
      ∃ v, (long least).unary .negate = .ok v ∧ Heap.empty.typeOf? v = some .long := by
  intro long least
  have hmeaning : resolveBinary .div .byte .long = some ⟨.div, .long, .long⟩ := rfl
  obtain ⟨hcomm, hagrees⟩ := operators_agree.1 .div .byte .long
  have hdivision := hagrees _ hmeaning
  have hnegation := operators_agree.2 .neg .long _ rfl
  have hone : ¬ (long (-1)).DividesByZero .div .long := by
    rintro ⟨-, -, hzero⟩
    exact absurd (Option.some.inj hzero) (by decide)
  have hzero : (long 0).DividesByZero .div .long := ⟨.inl rfl, ⟨.long, rfl⟩, rfl⟩
  exact ⟨hmeaning, hcomm.symm.trans hmeaning, hdivision.gives .empty _ _ rfl rfl hone,
    hdivision.fails .empty _ _ rfl rfl hzero, rfl, hnegation .empty (long least) rfl⟩

end Parcel
