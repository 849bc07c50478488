import Parcel.Text.EditDistance
import Parcel.Text.LowerCase

/-!
# Suggested names

A message about an unknown name may suggest a known one that is close to it.
-/

namespace Parcel.Text

/-- Puts a text before the first one of a list that is not less. -/
def insertInOrder (text : String) : List String → List String
  | [] => [text]
  | next :: rest => if text ≤ next then text :: next :: rest else next :: insertInOrder text rest

/-- Texts in their order. -/
def inOrder (texts : List String) : List String :=
  texts.foldr insertInOrder []

/-- The largest distance that is still close for a name of this length. -/
def closeness (name : String) : Nat :=
  max 1 (name.length / 3)

/-- The candidates other than `name` that are close enough to it, with their distances; `fold` takes
away from names what does not count. -/
def measured (fold : String → String) (name : String) (candidates : List String) :
    List (Nat × String) :=
  let folded := fold name
  let others := candidates.filter (· ≠ name)
  (others.map fun candidate => (editDistance folded (fold candidate), candidate)).filter
    (·.1 ≤ closeness name)

/-- The first one of the candidates that are closest to `name`. -/
def firstClosest (fold : String → String) (name : String) (candidates : List String) :
    Option String :=
  ((measured fold name candidates).minOn? (·.1)).map (·.2)

/-- The candidate closest to `name`; of several equally close ones the first in the order of
texts. -/
def closestBy (fold : String → String) (name : String) (candidates : List String) : Option String :=
  firstClosest fold name (inOrder candidates)

/-- The candidate closest to `name` without regard to case. -/
def closest (name : String) (candidates : List String) : Option String :=
  closestBy toLower name candidates

/-- The words that suggest a name at the end of a message, or nothing. -/
def suggestionSuffix : Option String → String
  | some name => s!"; did you mean `{name}`?"
  | none => ""

end Parcel.Text
