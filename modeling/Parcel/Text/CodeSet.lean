/-!
# Sets of characters

A class of characters is described by the lengths of the runs of code points that are, in turn,
outside and inside it, so that a property with hundreds of ranges is one list of small numbers.
-/

namespace Parcel

/-- A class of characters, given by the lengths of the runs of code points from zero on, the first
of which is outside. What comes after the last run is on the other side of it. -/
structure CodeSet where
  runs : List Nat

namespace CodeSet

/-- Walks the runs, turning membership over at the end of each one that `code` has passed. -/
def insideFrom (code : Nat) (inside : Bool) : List Nat → Bool
  | [] => inside
  | run :: runs => if code < run then inside else insideFrom (code - run) (!inside) runs

/-- Whether the class has the character. -/
def contains (set : CodeSet) (c : Char) : Bool :=
  insideFrom c.toNat false set.runs

end CodeSet

end Parcel
