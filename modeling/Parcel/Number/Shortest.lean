import Parcel.Number.Binary

/-!
# Shortest decimal digits

A floating-point number is shown by the fewest digits that read back as the same number; of the
candidates with that many digits, by the one nearest to it. The digits are found in exact
arithmetic: the numbers that read back form an interval around the given one, and for each count
of digits only the two decimals next to the given number need to be tried.
-/

namespace Parcel

/-- The decimal number `digits * 10 ^ exponent`. -/
structure Decimal where
  digits : Nat
  exponent : Int
  deriving DecidableEq, Repr

namespace Decimal

/-- Drops trailing zeros from the digits; `fuel` bounds how many. -/
def strip : Nat → Decimal → Decimal
  | 0, d => d
  | fuel + 1, d =>
    if d.digits ≠ 0 ∧ d.digits % 10 = 0 then strip fuel ⟨d.digits / 10, d.exponent + 1⟩ else d

end Decimal

namespace Binary

/-- The numbers that read back as a given one, as multiples of `1 / scale`. -/
structure Interval where
  scale : Nat
  value : Nat
  low : Nat
  high : Nat
  /-- Whether the two ends belong to it. -/
  closed : Bool

/-- The numbers that round to `mantissa * 2 ^ exponent`: half a unit to each side, and a quarter
below where the unit changes. An end belongs to it when the mantissa is even. -/
def Interval.around (fmt : Format) (mantissa : Nat) (exponent : Int) : Interval :=
  let below := if mantissa = Nat.pow 2 fmt.fractionBits ∧ fmt.leastExponent < exponent then 1 else 2
  let unit := Nat.pow 2 (exponent - 2).toNat
  { scale := Nat.pow 2 (2 - exponent).toNat
    value := 4 * mantissa * unit
    low := (4 * mantissa - below) * unit
    high := (4 * mantissa + 2) * unit
    closed := mantissa % 2 == 0 }

/-- `10 ^ n` where that is a whole number, and `1` otherwise. -/
def pow10 (n : Int) : Nat :=
  Nat.pow 10 n.toNat

/-- Whether the number lies at or above `10 ^ n`. -/
def Interval.reaches (i : Interval) (n : Int) : Bool :=
  decide (pow10 n * i.scale ≤ i.value * pow10 (-n))

/-- The exponent of the first decimal digit: an estimate from the binary exponent, which is at most
one off, and a comparison that mends it. -/
def Interval.leading (i : Interval) : Int :=
  let estimate := Int.fdiv (((i.value.log2 : Int) - (i.scale.log2 : Int)) * 30103) 100000
  if !i.reaches estimate then estimate - 1
  else if i.reaches (estimate + 1) then estimate + 1
  else estimate

/-- Whether the decimal `digits * 10 ^ exponent` lies in the interval. -/
def Interval.contains (i : Interval) (digits : Nat) (exponent : Int) : Bool :=
  let point := digits * pow10 exponent * i.scale
  let grown := pow10 (-exponent)
  if i.closed then decide (i.low * grown ≤ point) && decide (point ≤ i.high * grown)
  else decide (i.low * grown < point) && decide (point < i.high * grown)

/-- The decimal of the interval on the grid of `10 ^ exponent` that is nearest to the number; of
two equally near the greater. -/
def Interval.pick (i : Interval) (exponent : Int) : Option Decimal :=
  let unit := pow10 exponent * i.scale
  let value := i.value * pow10 (-exponent)
  let lower := value / unit
  let upperNearer := decide (unit ≤ 2 * (value % unit))
  match i.contains lower exponent, i.contains (lower + 1) exponent with
  | true, true => some ⟨if upperNearer then lower + 1 else lower, exponent⟩
  | true, false => some ⟨lower, exponent⟩
  | false, true => some ⟨lower + 1, exponent⟩
  | false, false => none

/-- Tries ever finer grids; `fuel` bounds the count of digits, and every number of 64 bits is found
with 17. -/
def Interval.search (i : Interval) (exponent : Int) : Nat → Decimal
  | 0 => ⟨i.value * pow10 (-exponent) / (pow10 exponent * i.scale), exponent⟩
  | fuel + 1 =>
    match i.pick exponent with
    | some d => d
    | none => i.search (exponent - 1) fuel

/-- The shortest decimal that reads back as `mantissa * 2 ^ exponent`. -/
def shortest (fmt : Format) (mantissa : Nat) (exponent : Int) : Decimal :=
  if mantissa = 0 then ⟨0, 0⟩
  else
    let i := Interval.around fmt mantissa exponent
    (i.search i.leading 17).strip 17

end Binary

end Parcel
