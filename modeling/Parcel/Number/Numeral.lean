import Parcel.Number.Word
import Parcel.Number.Binary

/-!
# Numerals: reading numbers from text

An integer is an optional sign and decimal digits, and lies in the range of its width. A
floating-point number is an optional sign, decimal digits with at most one point among them and an
optional exponent, or one of the words for infinity and for no number, in any case.
-/

namespace Parcel.Numeral

/-- The number that decimal digits stand for, most significant first. -/
def digitsValue (digits : List Char) : Nat :=
  digits.foldl (fun n c => 10 * n + (c.toNat - '0'.toNat)) 0

/-- Whether a text consists of one or more decimal digits. -/
def isDigits (text : List Char) : Bool :=
  !text.isEmpty && text.all Char.isDigit

/-- Splits an optional sign off: whether it is a minus, and what follows it. -/
def sign : List Char → Bool × List Char
  | '-' :: rest => (true, rest)
  | '+' :: rest => (false, rest)
  | text => (false, text)

/-- Reads a whole number of any size. -/
def whole? (text : List Char) : Option Int :=
  let (negative, digits) := sign text
  if isDigits digits then
    let n : Int := digitsValue digits
    some (if negative then -n else n)
  else none

/-- Reads an integer of a width; a number outside its range is refused. -/
def integer? (w : Width) (text : List Char) : Option Word :=
  match whole? text with
  | some n => if w.holds n then some (Word.wrap w n) else none
  | none => none

/-- What a floating-point numeral stands for, before it is rounded to a format. -/
inductive Reading where
  | nan
  | infinite
  /-- The decimal `digits * 10 ^ exponent`. -/
  | decimal (digits : Nat) (exponent : Int)

/-- Reads an exponent: nothing, or a letter e with an optional sign and digits. -/
def exponent? : List Char → Option Int
  | [] => some 0
  | c :: rest => if c = 'e' ∨ c = 'E' then whole? rest else none

/-- Reads the digits and exponent of a floating-point numeral without its sign. -/
def decimal? (text : List Char) : Option Reading :=
  let before := text.takeWhile Char.isDigit
  let rest := text.dropWhile Char.isDigit
  let (after, rest) := match rest with
    | '.' :: more => (more.takeWhile Char.isDigit, more.dropWhile Char.isDigit)
    | _ => ([], rest)
  if before.isEmpty && after.isEmpty then none
  else (exponent? rest).map fun e => .decimal (digitsValue (before ++ after)) (e - after.length)

def isWord (word : String) (text : List Char) : Bool :=
  text.map Char.toLower == word.toList

/-- Reads a floating-point numeral without its sign. -/
def unsigned? (text : List Char) : Option Reading :=
  if isWord "inf" text || isWord "infinity" text then some .infinite
  else if isWord "nan" text then some .nan
  else decimal? text

/-- The greatest power of ten, and the least, that a decimal can have without being beyond every
floating-point number. -/
def farExponent : Int := 400

/-- Rounds a decimal, given a rounding of `digits * 10 ^ exponent` that is exact for exponents in
reach; decimals beyond every number of the format are infinite or zero. -/
def rounded {α : Type} (round : Nat → Bool → Nat → α) (zero infinite : α)
    (digits : Nat) (exponent : Int) : α :=
  let leading := exponent + (toString digits).length
  if digits = 0 then zero
  else if farExponent < leading then infinite
  else if leading < -farExponent then zero
  else round digits (exponent < 0) exponent.natAbs

/-- Reads a 32-bit floating-point number. -/
def float32? (text : List Char) : Option Float32 :=
  let (negative, body) := sign text
  (unsigned? body).map fun reading =>
    let x := match reading with
      | .nan => Binary.nan.toFloat32
      | .infinite => (Binary.infinite false).toFloat32
      | .decimal d e =>
        rounded Float32.ofScientific (Float32.ofBits 0) (Binary.infinite false).toFloat32 d e
    if negative then -x else x

/-- Reads a 64-bit floating-point number. -/
def float? (text : List Char) : Option Float :=
  let (negative, body) := sign text
  (unsigned? body).map fun reading =>
    let x := match reading with
      | .nan => Binary.nan.toFloat
      | .infinite => (Binary.infinite false).toFloat
      | .decimal d e =>
        rounded Float.ofScientific (Float.ofBits 0) (Binary.infinite false).toFloat d e
    if negative then -x else x

end Parcel.Numeral
