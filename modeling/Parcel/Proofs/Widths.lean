import Parcel.Machine.Convert
import Parcel.Machine.Operation
import Parcel.Proofs.Number.Word

/-!
# Integers across widths

Conversions between integer types and the operators on integers fit together: a conversion to a
wider type loses nothing, a conversion to a narrower one depends on the low bits only, and so does
what an operator gives when its result is made narrow again. Division is exact but for one pair of
operands.

## Main results

* `Width.tdiv_mem_range` — the one quotient that lies outside of the range.
* `Value.binary_of_unwrapped?` — operators on words are the exact ones, wrapped.
* `integers_across_widths` — conversions and operators across widths.
-/

namespace Parcel

open Code

variable {op : BinaryOp} {n : Int}

/-! ### Quotients and remainders -/

namespace Width

variable {w : Width} {a : Int}

/-- **A quotient lies in the range of a width** unless the least number is divided by minus one. -/
theorem tdiv_mem_range (ha : a ∈ w.range) {b : Int} (h : ¬ (a = w.least ∧ b = -1)) :
    a.tdiv b ∈ w.range := by
  rw [mem_range_iff] at ha ⊢
  have hlimit := w.limit_pos
  have hleast : w.least = -w.limit := rfl
  have hcases : b = 0 ∨ b = 1 ∨ b = -1 ∨ 2 ≤ b.natAbs := by omega
  rcases hcases with rfl | rfl | rfl | htwo
  · rw [Int.tdiv_zero]
    omega
  · rwa [Int.tdiv_one]
  · rw [Int.tdiv_neg, Int.tdiv_one]
    omega
  · have hhalf : (a.tdiv b).natAbs ≤ a.natAbs / 2 := by
      rw [Int.natAbs_tdiv]
      exact Nat.div_le_div_left htwo (by decide)
    omega

/-- A remainder lies in the range of a width: it has the sign of what is divided and is no farther
from zero. -/
lemma tmod_mem_range (ha : a ∈ w.range) (b : Int) : a.tmod b ∈ w.range := by
  rw [mem_range_iff] at ha ⊢
  have hlimit := w.limit_pos
  have hleast : w.least = -w.limit := rfl
  have hle : (a.tmod b).natAbs ≤ a.natAbs := by
    rw [Int.natAbs_tmod]
    exact Nat.mod_le _ _
  rcases Int.le_total 0 a with hsign | hsign
  · have := Int.tmod_nonneg b hsign
    omega
  · have := Int.tmod_nonneg b (Int.neg_nonneg_of_nonpos hsign)
    rw [Int.neg_tmod] at this
    omega

end Width

/-! ### Conversions -/

/-- The conversion of a word to an integer type makes another word of it. -/
def Heap.Turns (heap : Heap) (a : Word) (type : Width) (b : Word) : Prop :=
  b.width = type ∧ heap.convert (.integer type) (.integer a) = .ok (.integer b)

namespace Heap

variable {heap : Heap} {a b : Word} {w w' : Width}

/-- Integers are converted to integer types by wrapping. -/
lemma turns_wrap (heap : Heap) (a : Word) (w : Width) : heap.Turns a w (Word.wrap w a.val) :=
  ⟨rfl, rfl⟩

lemma Turns.eq (h : heap.Turns a w b) : b = Word.wrap w a.val :=
  Value.integer.inj (Except.ok.inj (h.2.symm.trans (turns_wrap heap a w).2))

/-- A conversion to a wider type keeps the number. -/
lemma val_wrap_of_widening (h : a.width.bits ≤ w.bits) : (Word.wrap w a.val).val = a.val :=
  Word.val_wrap_of_mem_range (Width.range_mono h a.val_mem_range)

lemma turns_back (h : a.width.bits ≤ w.bits) : heap.Turns (Word.wrap w a.val) a.width a := by
  have hback := turns_wrap heap (Word.wrap w a.val) a.width
  rwa [Word.wrap_wrap h, Word.wrap_val] at hback

/-- A conversion through a type that is no narrower than the last one gives what the last one
gives. -/
lemma Turns.trans (h : heap.Turns a w' b) (hbits : w.bits ≤ w'.bits) :
    heap.Turns b w (Word.wrap w a.val) := by
  rw [h.eq, ← Word.wrap_wrap hbits a.val]
  exact turns_wrap heap _ w

end Heap

/-! ### Operators -/

/-- The operators on integers that give integers. -/
def Code.BinaryOp.IsArithmetic (op : BinaryOp) : Prop :=
  op ∈ [BinaryOp.add, .sub, .mul, .div, .rem]

lemma Word.exists_unwrapped? (hop : op.IsArithmetic) (a b : Int) :
    ∃ n, Word.unwrapped? op a b = some n := by
  simp only [BinaryOp.IsArithmetic, List.mem_cons, List.not_mem_nil, or_false] at hop
  rcases hop with rfl | rfl | rfl | rfl | rfl <;> exact ⟨_, rfl⟩

namespace Value

variable {a b : Word} (hwidth : a.width = b.width)
include hwidth

/-- **Operators on words are the exact ones, wrapped**, unless they divide by zero. -/
theorem binary_of_unwrapped? (hn : Word.unwrapped? op a.val b.val = some n)
    (hzero : Word.divides op = true → b.val ≠ 0) :
    binary op (.integer a) (.integer b) = .ok (.integer (Word.wrap a.width n)) := by
  have hnonzero : ¬ (Word.divides op && decide (b.val = 0)) = true := by
    intro h
    obtain ⟨hdivides, hb⟩ := Bool.and_eq_true_iff.mp h
    exact hzero hdivides (of_decide_eq_true hb)
  simp only [binary, if_pos hwidth, integerBinary, hn, if_neg hnonzero]

/-- Division gives the exact quotient, but for the least number divided by minus one, which gives
the least number again. -/
lemma binary_div (hzero : b.val ≠ 0) :
    ∃ q : Word, q.width = a.width ∧ binary .div (.integer a) (.integer b) = .ok (.integer q) ∧
      (q.val = a.val.tdiv b.val ∨ a.val = a.width.least ∧ b.val = -1 ∧ q = a) := by
  refine ⟨Word.wrap a.width (a.val.tdiv b.val), rfl, binary_of_unwrapped? hwidth rfl fun _ => hzero, ?_⟩
  by_cases h : a.val = a.width.least ∧ b.val = -1
  · refine .inr ⟨h.1, h.2, Word.ext rfl ?_⟩
    rw [h.1, h.2, Word.val_wrap]
    cases a.width <;> rfl
  · exact .inl (Word.val_wrap_of_mem_range (Width.tdiv_mem_range a.val_mem_range h))

/-- The remainder is always exact. -/
lemma binary_rem (hzero : b.val ≠ 0) :
    ∃ r : Word, r.width = a.width ∧ binary .rem (.integer a) (.integer b) = .ok (.integer r) ∧
      r.val = a.val.tmod b.val :=
  ⟨Word.wrap a.width (a.val.tmod b.val), rfl, binary_of_unwrapped? hwidth rfl fun _ => hzero,
    Word.val_wrap_of_mem_range (Width.tmod_mem_range a.val_mem_range b.val)⟩

end Value

/-- Two words are converted to a wider type, an operator is applied there, and the result is
converted back. -/
def Heap.ComputesIn (heap : Heap) (type : Width) (op : BinaryOp) (a b r : Word) : Prop :=
  ∃ a' b' r', heap.Turns a type a' ∧ heap.Turns b type b' ∧ r'.width = type ∧
    Value.binary op (.integer a') (.integer b') = .ok (.integer r') ∧ heap.Turns r' a.width r

/-- Computing in a wider type gives the word that the exact result is wrapped to. -/
lemma Heap.computesIn_of_unwrapped? (heap : Heap) {w : Width} {a b : Word}
    (hwidth : a.width = b.width) (hbits : a.width.bits ≤ w.bits)
    (hn : Word.unwrapped? op a.val b.val = some n) (hzero : Word.divides op = true → b.val ≠ 0) :
    heap.ComputesIn w op a b (Word.wrap a.width n) := by
  have ha : (Word.wrap w a.val).val = a.val := val_wrap_of_widening hbits
  have hb : (Word.wrap w b.val).val = b.val := val_wrap_of_widening (hwidth ▸ hbits)
  have hn' : Word.unwrapped? op (Word.wrap w a.val).val (Word.wrap w b.val).val = some n := by
    rwa [ha, hb]
  have hzero' : Word.divides op = true → (Word.wrap w b.val).val ≠ 0 := by rwa [hb]
  have hsame : (Word.wrap w a.val).width = (Word.wrap w b.val).width := rfl
  have hback : heap.Turns (Word.wrap w n) a.width (Word.wrap a.width n) := by
    rw [← Word.wrap_wrap hbits n]
    exact turns_wrap heap _ a.width
  exact ⟨Word.wrap w a.val, Word.wrap w b.val, Word.wrap w n, turns_wrap heap a w,
    turns_wrap heap b w, rfl, Value.binary_of_unwrapped? hsame hn' hzero', hback⟩

/-- **Integers across widths.** For all integer types:
* converting a word to a type that is at least as wide keeps its number, and converting it back
  gives the word again;
* converting a word to any type gives the one number in the range of the type that differs from it
  by a multiple of the number of its words, so a conversion on the way to a type at least as wide
  changes nothing;
* an operator on two words of one type gives a word of that type, the same as when it is applied in
  a type that is at least as wide and the result is converted back;
* a quotient is exact, but for the least number divided by minus one, which gives the least number;
  a remainder is exact. -/
theorem integers_across_widths (heap : Heap) :
    (∀ (a : Word) (w : Width), a.width.bits ≤ w.bits →
      ∃ b, heap.Turns a w b ∧ b.val = a.val ∧ heap.Turns b a.width a) ∧
    (∀ (a : Word) (w : Width), ∃ b, heap.Turns a w b ∧ b.val ∈ w.range ∧
      b.val ≡ a.val [ZMOD 2 ^ w.bits] ∧
      (∀ n ∈ w.range, n ≡ a.val [ZMOD 2 ^ w.bits] → n = b.val) ∧
      ∀ (w' : Width) (c : Word), w.bits ≤ w'.bits → heap.Turns a w' c → heap.Turns c w b) ∧
    (∀ (op : BinaryOp) (a b : Word), op.IsArithmetic → a.width = b.width →
      (op = .div ∨ op = .rem → b.val ≠ 0) →
      ∃ r : Word, r.width = a.width ∧ Value.binary op (.integer a) (.integer b) = .ok (.integer r) ∧
        ∀ w : Width, a.width.bits ≤ w.bits → heap.ComputesIn w op a b r) ∧
    ∀ a b : Word, a.width = b.width → b.val ≠ 0 →
      ∃ q r : Word, Value.binary .div (.integer a) (.integer b) = .ok (.integer q) ∧
        Value.binary .rem (.integer a) (.integer b) = .ok (.integer r) ∧
        (q.val = a.val.tdiv b.val ∨ a.val = a.width.least ∧ b.val = -1 ∧ q = a) ∧
        r.val = a.val.tmod b.val := by
  refine ⟨fun a w hbits => ?_, fun a w => ?_, fun op a b hop hwidth hzero => ?_,
    fun a b hwidth hzero => ?_⟩
  · exact ⟨Word.wrap w a.val, Heap.turns_wrap heap a w, Heap.val_wrap_of_widening hbits,
      Heap.turns_back hbits⟩
  · exact ⟨Word.wrap w a.val, Heap.turns_wrap heap a w, (Word.wrap w a.val).val_mem_range,
      Word.modEq_wrap w a.val, fun n hn => Word.eq_val_wrap hn, fun w' c hbits hc => hc.trans hbits⟩
  · obtain ⟨n, hn⟩ := Word.exists_unwrapped? hop a.val b.val
    have hnonzero : Word.divides op = true → b.val ≠ 0 := by
      intro hdivides
      refine hzero ?_
      cases op with
      | div => exact .inl rfl
      | rem => exact .inr rfl
      | _ => cases hdivides
    exact ⟨Word.wrap a.width n, rfl, Value.binary_of_unwrapped? hwidth hn hnonzero,
      fun w hbits => heap.computesIn_of_unwrapped? hwidth hbits hn hnonzero⟩
  · obtain ⟨q, -, hq, hquotient⟩ := Value.binary_div hwidth hzero
    obtain ⟨r, -, hr, hremainder⟩ := Value.binary_rem hwidth hzero
    exact ⟨q, r, hq, hr, hquotient, hremainder⟩

/-- The least `byte` divided by minus one, as a `byte` and as a `long`; three hundred is turned into
a `byte`, and through a `short`. -/
theorem integers_across_widths_least_byte :
    let byte (n : Int) : Word := Word.wrap .byte n
    Value.binary .div (.integer (byte (-128))) (.integer (byte (-1))) = .ok (.integer (byte (-128))) ∧
      Heap.empty.ComputesIn .long .div (byte (-128)) (byte (-1)) (byte (-128)) ∧
      (∃ r : Word, Value.binary .rem (.integer (byte (-128))) (.integer (byte (-1))) =
        .ok (.integer r) ∧ r.val = 0) ∧
      (∃ b, Heap.empty.Turns (byte (-3)) .long b ∧ b.val = -3 ∧ Heap.empty.Turns b .byte (byte (-3))) ∧
      ∃ b, Heap.empty.Turns (Word.wrap .int 300) .byte b ∧ b.val = 44 ∧
        Heap.empty.Turns (Word.wrap .short 300) .byte b := by
  intro byte
  obtain ⟨hwiden, hconvert, hcompute, hdivide⟩ := integers_across_widths .empty
  have hone : (byte (-1)).val ≠ 0 := by decide
  have hdiv : BinaryOp.div.IsArithmetic := by simp [BinaryOp.IsArithmetic]
  obtain ⟨q, -, hq, hcomputes⟩ := hcompute .div (byte (-128)) (byte (-1)) hdiv rfl fun _ => hone
  obtain ⟨-, r, -, hr, -, hrem⟩ := hdivide (byte (-128)) (byte (-1)) rfl hone
  obtain ⟨b, hb, -, -, -, hthrough⟩ := hconvert (Word.wrap .int 300) .byte
  obtain rfl : q = byte (-128) := Value.integer.inj (Except.ok.inj hq.symm)
  refine ⟨hq, hcomputes .long (by decide), ⟨r, hr, hrem⟩, ?_, b, hb, ?_, ?_⟩
  · exact hwiden (byte (-3)) .long (by decide)
  · rw [hb.eq]
    rfl
  · exact hthrough .short _ (by decide) ⟨rfl, rfl⟩

end Parcel
