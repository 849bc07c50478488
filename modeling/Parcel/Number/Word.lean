/-!
# Words: integers of a fixed width

An integer of the language has one of four widths. A result that does not fit its width keeps its
low bits, read as a signed number, so that every operation is the exact one followed by `wrap`.
-/

namespace Parcel

/-- The width of an integer type. -/
inductive Width where
  | byte
  | short
  | int
  | long
  deriving DecidableEq, Repr

namespace Width

def bits : Width → Nat
  | byte => 8
  | short => 16
  | int => 32
  | long => 64

/-- The number of words of a width. -/
def modulus : Width → Nat
  | byte => 256
  | short => 65536
  | int => 4294967296
  | long => 18446744073709551616

theorem modulus_eq (w : Width) : w.modulus = Nat.pow 2 w.bits := by
  cases w <;> rfl

theorem modulus_pos (w : Width) : 0 < w.modulus := by
  cases w <;> decide

def least (w : Width) : Int :=
  -((w.modulus / 2 : Nat) : Int)

/-- The number after the greatest one of a width. -/
def limit (w : Width) : Int :=
  ((w.modulus / 2 : Nat) : Int)

/-- Whether a number lies in the range of a width. -/
def holds (w : Width) (n : Int) : Bool :=
  decide (w.least ≤ n) && decide (n < w.limit)

end Width

/-- An integer of a fixed width. -/
structure Word where
  width : Width
  val : Int
  /-- The number lies in the range of its width. -/
  wrapped : val.bmod width.modulus = val

namespace Word

/-- The word of a given width that agrees with `n` in its low bits. -/
def wrap (w : Width) (n : Int) : Word :=
  ⟨w, n.bmod w.modulus, Int.bmod_bmod⟩

@[simp] theorem val_wrap (w : Width) (n : Int) : (wrap w n).val = n.bmod w.modulus := rfl

@[ext] theorem ext {a b : Word} (hw : a.width = b.width) (hv : a.val = b.val) : a = b := by
  cases a; cases b; simp_all

theorem wrap_val (a : Word) : wrap a.width a.val = a :=
  ext rfl a.wrapped

instance : DecidableEq Word := fun a b =>
  if h : a.width = b.width ∧ a.val = b.val then
    isTrue (ext h.1 h.2)
  else
    isFalse fun e => h ⟨e ▸ rfl, e ▸ rfl⟩

end Word

end Parcel
