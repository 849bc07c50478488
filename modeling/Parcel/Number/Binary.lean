/-!
# Binary floating-point numbers

A finite floating-point number is a natural number times a power of two. This view of the bits is
what exact arithmetic on such numbers starts from: their decimal digits and their remainders.
-/

namespace Parcel

/-- What a floating-point pattern stands for. -/
inductive Binary where
  | nan
  | infinite (negative : Bool)
  /-- The number `mantissa * 2 ^ exponent`, or its negative. -/
  | finite (negative : Bool) (mantissa : Nat) (exponent : Int)
  deriving DecidableEq, Repr

namespace Binary

/-- How a floating-point pattern is divided into fields. -/
structure Format where
  /-- Bits of the stored fraction. -/
  fractionBits : Nat
  /-- Bits of the stored exponent. -/
  exponentBits : Nat

/-- Numbers of 32 bits. -/
def single : Format := ⟨23, 8⟩

/-- Numbers of 64 bits. -/
def double : Format := ⟨52, 11⟩

def Format.leastExponent (fmt : Format) : Int :=
  2 - (Nat.pow 2 (fmt.exponentBits - 1) : Nat) - fmt.fractionBits

def ofBits (fmt : Format) (bits : Nat) : Binary :=
  let fraction := bits % Nat.pow 2 fmt.fractionBits
  let biased := bits / Nat.pow 2 fmt.fractionBits % Nat.pow 2 fmt.exponentBits
  let negative := bits / Nat.pow 2 (fmt.fractionBits + fmt.exponentBits) % 2 == 1
  if biased = Nat.pow 2 fmt.exponentBits - 1 then
    if fraction = 0 then .infinite negative else .nan
  else if biased = 0 then
    .finite negative fraction fmt.leastExponent
  else
    .finite negative (fraction + Nat.pow 2 fmt.fractionBits) (fmt.leastExponent + (biased - 1 : Nat))

/-- The view of a 32-bit number. -/
def ofFloat32 (x : Float32) : Binary :=
  ofBits single x.toBits.toNat

/-- The view of a 64-bit number. -/
def ofFloat (x : Float) : Binary :=
  ofBits double x.toBits.toNat

/-- The remainder of dividing by a number that is not zero, with the sign of the dividend: the
exact difference between the dividend and the multiple of the divisor next to it on the side of
zero. -/
def remainder : Binary → Binary → Binary
  | .finite s m e, .finite _ n f =>
    if n = 0 then .nan
    else
      let low := min e f
      .finite s (m * Nat.pow 2 (e - low).toNat % (n * Nat.pow 2 (f - low).toNat)) low
  | .finite s m e, .infinite _ => .finite s m e
  | _, _ => .nan

/-- The 64-bit number of a view whose mantissa fits. -/
def toFloat : Binary → Float
  | .nan => Float.ofBits 0x7FF8000000000000
  | .infinite s => if s then Float.ofBits 0xFFF0000000000000 else Float.ofBits 0x7FF0000000000000
  | .finite s m e =>
    let x := (UInt64.ofNat m).toFloat.scaleB e
    if s then -x else x

/-- The 32-bit number of a view whose mantissa fits. -/
def toFloat32 : Binary → Float32
  | .nan => Float32.ofBits 0x7FC00000
  | .infinite s => if s then Float32.ofBits 0xFF800000 else Float32.ofBits 0x7F800000
  | .finite s m e =>
    let x := (UInt64.ofNat m).toFloat32.scaleB e
    if s then -x else x

end Binary

end Parcel
