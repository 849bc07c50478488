import Parcel.Number.Shortest

/-!
# Decimal layout

How the digits of a floating-point number are laid out. Values are printed positionally whatever
their size; listings keep a fractional digit, so that a whole number is still seen to be a
floating-point one, and write very large and very small numbers with an exponent.
-/

namespace Parcel

/-- The decisions of a layout of decimal numbers. -/
structure Layout where
  /-- Whether a whole number is given a fractional digit. -/
  keepsPoint : Bool
  /-- The leading exponents that are written positionally, or all of them. -/
  positional : Option (Int × Int)

/-- Printed values: always positional, with no fraction for a whole number. -/
def valueLayout : Layout := ⟨false, none⟩

/-- Numbers in a listing: a fraction always, and an exponent outside `10 ^ -4` to `10 ^ 16`. -/
def listingLayout : Layout := ⟨true, some (-4, 16)⟩

namespace Layout

def zeros (n : Nat) : String :=
  String.ofList (List.replicate n '0')

/-- The digits with the point `before` places after the first digit's left. -/
def positionally (layout : Layout) (digits : String) (before : Int) : String :=
  let count : Int := digits.length
  if count ≤ before then
    digits ++ zeros (before - count).toNat ++ (if layout.keepsPoint then ".0" else "")
  else if 0 < before then
    let cs := digits.toList
    String.ofList (cs.take before.toNat) ++ "." ++ String.ofList (cs.drop before.toNat)
  else
    "0." ++ zeros (-before).toNat ++ digits

/-- The digits with the point after the first one, and an exponent. -/
def scientifically (digits : String) (leading : Int) : String :=
  let rest := String.ofList (digits.toList.drop 1)
  let tail := if rest.isEmpty then "" else "." ++ rest
  String.ofList (digits.toList.take 1) ++ tail ++ "e" ++ toString leading

def lay (layout : Layout) (d : Decimal) : String :=
  let digits := toString d.digits
  let before : Int := digits.length + d.exponent
  if d.digits = 0 then layout.positionally "0" 1
  else
    match layout.positional with
    | none => layout.positionally digits before
    | some (first, beyond) =>
      if first ≤ before - 1 ∧ before - 1 < beyond then layout.positionally digits before
      else scientifically digits (before - 1)

end Layout

/-- A floating-point number in a layout. -/
def Binary.render (fmt : Binary.Format) (layout : Layout) : Binary → String
  | .nan => "NaN"
  | .infinite s => if s then "-inf" else "inf"
  | .finite s m e => (if s then "-" else "") ++ layout.lay (Binary.shortest fmt m e)

def Layout.float32 (layout : Layout) (x : Float32) : String :=
  (Binary.ofFloat32 x).render Binary.single layout

def Layout.float (layout : Layout) (x : Float) : String :=
  (Binary.ofFloat x).render Binary.double layout

end Parcel
