import Mathlib.Data.Int.ModEq
import Mathlib.Data.Set.Defs
import Parcel.Number.Word

/-!
# The range of a width

The words of a width are the numbers of its range. Wrapping picks the one number of the range that
differs from a given one by a multiple of the number of words, so wrapping to a width is not changed
by wrapping to a greater one first.
-/

namespace Parcel

namespace Width

variable {w w' : Width} {n : Int}

/-- The numbers of a width, half of them negative. -/
def range (w : Width) : Set Int :=
  {n | -2 ^ (w.bits - 1) ≤ n ∧ n < 2 ^ (w.bits - 1)}

lemma mem_range_iff : n ∈ w.range ↔ w.least ≤ n ∧ n < w.limit := by
  cases w <;> exact Iff.rfl

lemma holds_iff : w.holds n = true ↔ n ∈ w.range := by
  rw [mem_range_iff, holds, Bool.and_eq_true, decide_eq_true_iff, decide_eq_true_iff]

/-- Wrapping leaves the numbers of the range as they are, and no others. -/
lemma bmod_modulus_eq_iff : n.bmod w.modulus = n ↔ n ∈ w.range := by
  have hle := Int.le_bmod (x := n) w.modulus_pos
  have hlt := Int.bmod_lt (x := n) w.modulus_pos
  rw [mem_range_iff]
  constructor
  · intro h
    rw [h] at hle hlt
    cases w <;> simp only [least, limit, modulus] at * <;> omega
  · rintro ⟨hleast, hlimit⟩
    refine Int.bmod_eq_of_le ?_ ?_
    all_goals cases w <;> simp only [least, limit, modulus] at * <;> omega

lemma limit_pos (w : Width) : 0 < w.limit := by
  cases w <;> decide

lemma natCast_modulus (w : Width) : (w.modulus : Int) = 2 ^ w.bits := by
  cases w <;> rfl

lemma modulus_dvd (h : w.bits ≤ w'.bits) : w.modulus ∣ w'.modulus := by
  rw [modulus_eq, modulus_eq]
  exact Nat.pow_dvd_pow 2 h

lemma range_mono (h : w.bits ≤ w'.bits) : w.range ⊆ w'.range := by
  intro n hn
  rw [mem_range_iff] at hn ⊢
  cases w <;> cases w' <;> simp only [bits, least, limit, modulus] at * <;> omega

end Width

namespace Word

variable {w w' : Width} {n m : Int}

lemma val_mem_range (a : Word) : a.val ∈ a.width.range :=
  Width.bmod_modulus_eq_iff.mp a.wrapped

/-- A number in the range of a width is not changed by wrapping. -/
lemma val_wrap_of_mem_range (h : n ∈ w.range) : (wrap w n).val = n :=
  Width.bmod_modulus_eq_iff.mpr h

lemma least_le_val (a : Word) : a.width.least ≤ a.val ∧ a.val < a.width.limit :=
  Width.mem_range_iff.mp a.val_mem_range

lemma val_wrap_of_le (hle : w.least ≤ n) (hlt : n < w.limit) : (wrap w n).val = n :=
  val_wrap_of_mem_range (Width.mem_range_iff.mpr ⟨hle, hlt⟩)

/-- **Wrapping to a width is not changed by wrapping to a greater one first.** -/
theorem wrap_wrap (h : w.bits ≤ w'.bits) (n : Int) : wrap w (wrap w' n).val = wrap w n :=
  ext rfl (Int.bmod_bmod_of_dvd (Width.modulus_dvd h))

/-- Wrapping changes a number by a multiple of the number of words. -/
lemma modEq_wrap (w : Width) (n : Int) : (wrap w n).val ≡ n [ZMOD 2 ^ w.bits] := by
  rw [val_wrap, ← Width.natCast_modulus]
  exact Int.bmod_emod

/-- No other number of the range differs from the given one by such a multiple. -/
lemma eq_val_wrap (hm : m ∈ w.range) (h : m ≡ n [ZMOD 2 ^ w.bits]) : m = (wrap w n).val := by
  rw [← Width.natCast_modulus] at h
  calc m = m.bmod w.modulus := (Width.bmod_modulus_eq_iff.mpr hm).symm
    _ = (m % w.modulus).bmod w.modulus := (Int.emod_bmod m _).symm
    _ = (n % w.modulus).bmod w.modulus := by rw [h]
    _ = n.bmod w.modulus := Int.emod_bmod n _

end Word

end Parcel
