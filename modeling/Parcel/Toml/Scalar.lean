import Parcel.Number.Numeral

/-!
# Numbers, dates and times of a configuration file

These are words of letters, digits and a few marks. Integers have a value here; of the others only
the form is checked, and that a floating-point number is not too great.
-/

namespace Parcel.Toml

def digit? (base : Nat) (c : Char) : Option Nat :=
  let value :=
    if c.isDigit then c.toNat - '0'.toNat
    else if 'a' ≤ c ∧ c ≤ 'f' then c.toNat - 'a'.toNat + 10
    else if 'A' ≤ c ∧ c ≤ 'F' then c.toNat - 'A'.toNat + 10
    else base
  if value < base then some value else none

/-- The value of digits, added to that of the digits before them. Underscores stand between two
digits only; `wanted` tells whether a digit has to follow. -/
def digitsValue? (base : Nat) (value : Nat) (wanted : Bool) : List Char → Option Nat
  | [] => if wanted then none else some value
  | '_' :: rest => if wanted then none else digitsValue? base value true rest
  | c :: rest =>
    match digit? base c with
    | some d => digitsValue? base (value * base + d) false rest
    | none => none

def number? (base : Nat) (digits : List Char) : Option Nat :=
  digitsValue? base 0 true digits

/-- Whether decimal digits start with a zero that more digits follow. -/
def hasLeadingZero : List Char → Bool
  | '0' :: _ :: _ => true
  | _ => false

/-- The value of a decimal number without leading zeros. -/
def decimal? (digits : List Char) : Option Nat :=
  if hasLeadingZero digits then none else number? 10 digits

/-- The number if it fits in 64 bits. -/
def inRange? (n : Int) : Option Int :=
  if Width.long.holds n then some n else none

/-- The value of an integer: decimal with an optional sign, or in base two, eight or sixteen. -/
def integer? (word : List Char) : Option Int :=
  match word with
  | '0' :: 'x' :: digits => number? 16 digits >>= fun n => inRange? n
  | '0' :: 'o' :: digits => number? 8 digits >>= fun n => inRange? n
  | '0' :: 'b' :: digits => number? 2 digits >>= fun n => inRange? n
  | '+' :: digits => decimal? digits >>= fun n => inRange? n
  | '-' :: digits => decimal? digits >>= fun n => inRange? (-(n : Int))
  | digits => decimal? digits >>= fun n => inRange? n

/-- The word without a sign in front. -/
def unsigned : List Char → List Char
  | '+' :: rest | '-' :: rest => rest
  | word => word

/-- Whether an exponent follows: a letter e, a sign perhaps, and digits. -/
def isExponent : List Char → Bool
  | 'e' :: rest | 'E' :: rest => (number? 10 (unsigned rest)).isSome
  | _ => false

/-- Whether a character belongs to the digits of a number. -/
def isDigitPart (c : Char) : Bool :=
  c.isDigit || c = '_'

/-- Whether a word, without its sign, stands for infinity or for no number. -/
def isSpecial (word : List Char) : Bool :=
  unsigned word = "inf".toList || unsigned word = "nan".toList

/-- Whether a word has the form of a floating-point number in digits. -/
def isFraction (word : List Char) : Bool :=
  let word := unsigned word
  let whole := word.takeWhile isDigitPart
  (decimal? whole).isSome &&
    match word.dropWhile isDigitPart with
    | '.' :: rest =>
      (number? 10 (rest.takeWhile isDigitPart)).isSome &&
        let rest := rest.dropWhile isDigitPart
        rest.isEmpty || isExponent rest
    | rest => isExponent rest

/-- Whether the value of a floating-point number is so great that it rounds to infinity; a negative
one is never too great. -/
def isTooGreat (word : List Char) : Bool :=
  match Numeral.float? (word.filter (· ≠ '_')) with
  | some value => Binary.ofFloat value = .infinite false
  | none => false

/-- Whether a word is a floating-point number: one of the words for infinity and for no number, or
digits whose value is not too great. -/
def isFloat (word : List Char) : Bool :=
  isSpecial word || (isFraction word && !isTooGreat word)

/-! ### Dates and times -/

def twoDigits? (a b : Char) : Option Nat :=
  if a.isDigit ∧ b.isDigit then number? 10 [a, b] else none

/-- Whether a year has a day more. -/
def isLeapYear (year : Nat) : Bool :=
  year % 4 = 0 && (year % 100 ≠ 0 || year % 400 = 0)

def daysIn (year month : Nat) : Nat :=
  if month = 2 then if isLeapYear year then 29 else 28
  else if month ∈ [4, 6, 9, 11] then 30
  else 31

/-- What follows a date, if the word starts with one. -/
def afterDate? : List Char → Option (List Char)
  | a :: b :: c :: d :: '-' :: e :: f :: '-' :: g :: h :: rest => do
    let century ← twoDigits? a b
    let year ← twoDigits? c d
    let month ← twoDigits? e f
    let day ← twoDigits? g h
    if 1 ≤ month ∧ month ≤ 12 ∧ 1 ≤ day ∧ day ≤ daysIn (century * 100 + year) month then some rest
    else none
  | _ => none

/-- What follows a fraction of a second, if there is one. -/
def afterFraction? : List Char → Option (List Char)
  | '.' :: c :: rest => if c.isDigit then some (rest.dropWhile Char.isDigit) else none
  | '.' :: [] => none
  | rest => some rest

/-- What follows a time, if the word starts with one. -/
def afterTime? : List Char → Option (List Char)
  | a :: b :: ':' :: c :: d :: ':' :: e :: f :: rest => do
    let hour ← twoDigits? a b
    let minute ← twoDigits? c d
    let second ← twoDigits? e f
    if hour < 24 ∧ minute < 60 ∧ second ≤ 60 then afterFraction? rest else none
  | _ => none

/-- Whether a word is the offset of a time zone, or nothing. -/
def isOffset : List Char → Bool
  | [] | ['Z'] | ['z'] => true
  | [s, a, b, ':', c, d] =>
    (s = '+' || s = '-') &&
      match twoDigits? a b, twoDigits? c d with
      | some hour, some minute => hour < 24 && minute < 60
      | _, _ => false
  | _ => false

def isDateTime (word : List Char) : Bool :=
  match afterDate? word with
  | some [] => true
  | some (c :: rest) =>
    (c = 'T' || c = 't' || c = ' ') &&
      match afterTime? rest with
      | some rest => isOffset rest
      | none => false
  | none => afterTime? word == some []

end Parcel.Toml
