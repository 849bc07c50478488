/-!
# Edit distance

The distance of two names is the least number of single characters to insert, delete or replace that
turns one into the other. It is found row by row: the row of a prefix of the first name holds its
distances to every prefix of the second. Only two rows are kept; when one is written, they change
places.
-/

namespace Parcel.Text

/-- Writes the entry after that of `j` characters, for the next character `d` of the second name;
`c` is the character of the first name to which the row belongs. -/
def writeEntry (c : Char) (previous current : Array Nat) : Char × Nat → Array Nat
  | (d, j) =>
    let substitute := previous.getD j 0 + if c = d then 0 else 1
    current.setIfInBounds (j + 1)
      (min (min substitute (previous.getD (j + 1) 0 + 1)) (current.getD j 0 + 1))

/-- Writes the row of a prefix of the first name, which ends with `c` after `i` characters, over an
old row. -/
def writeRow (second : List Char) (previous current : Array Nat) (i : Nat) (c : Char) : Array Nat :=
  second.zipIdx.foldl (writeEntry c previous) (current.setIfInBounds 0 (i + 1))

/-- The row of the prefix that was read, and an old row that the next one is written over. -/
structure Rows where
  previous : Array Nat
  current : Array Nat

/-- Writes the next row and lets the two change places. -/
def Rows.next (second : List Char) (rows : Rows) : Char × Nat → Rows
  | (c, i) => ⟨writeRow second rows.previous rows.current i c, rows.previous⟩

/-- The row of the empty prefix, each prefix of the second name being as far as it is long, and one
without meaning. -/
def Rows.start (second : List Char) : Rows :=
  ⟨Array.range (second.length + 1), Array.replicate (second.length + 1) 0⟩

/-- The least number of characters to insert, delete or replace between two names. -/
def editDistance (first second : String) : Nat :=
  let first := first.toList
  let second := second.toList
  if first.isEmpty ∨ second.isEmpty then max first.length second.length
  else (first.zipIdx.foldl (Rows.next second) (Rows.start second)).previous.getD second.length 0

end Parcel.Text
