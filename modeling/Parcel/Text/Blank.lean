import Parcel.Text.CodeSet

/-!
# White space

The white space that may surround a numeral read from a text.
-/

namespace Parcel.Text

/-- The characters that count as white space. -/
def blank : CodeSet := ⟨[
  9, 5, 18, 1, 100, 1, 26, 1, 5599, 1, 2431, 11, 29, 2, 5, 1, 47, 1, 4000, 1]⟩

/-- Whether a character is white space. -/
def isBlank (c : Char) : Bool :=
  blank.contains c

/-- A text without the white space at its two ends. -/
def trim (text : List Char) : List Char :=
  ((text.dropWhile isBlank).reverse.dropWhile isBlank).reverse

end Parcel.Text
