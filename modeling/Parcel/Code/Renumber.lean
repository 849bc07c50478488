import Std.Data.TreeMap
import Parcel.Code.Tree

/-!
# Renumbering of labels

The numbers of labels say nothing but which jump leads where. Numbering the labels of lowered code
in the order in which they first appear gives a form that does not depend on the order in which
functions were lowered.
-/

namespace Parcel.Code

/-- The label that a statement of lowered code shows. -/
def shownLabel? : Stmt → Option Label
  | .label label | .goto label | .gotoIf _ label => some label
  | _ => none

/-- A statement of lowered code with its label replaced. -/
def mapLabel (f : Label → Label) : Stmt → Stmt
  | .label label => .label (f label)
  | .goto label => .goto (f label)
  | .gotoIf condition label => .gotoIf condition (f label)
  | stmt => stmt

def Body.labels : Body → List Label
  | .structured _ => []
  | .lowered code => code.toList.filterMap shownLabel?

def Body.mapLabels (f : Label → Label) : Body → Body
  | .structured body => .structured body
  | .lowered code => .lowered (code.map (mapLabel f))

/-- The labels that appear with their numbers: a label that appears for the first time gets the
number of labels before it. -/
def numbering (labels : List Label) : Std.TreeMap Nat Nat :=
  labels.foldl (fun numbers label => numbers.insertIfNew label.index numbers.size) ∅

/-- A label under its number; one that does not appear comes after all others. -/
def renumber (numbers : Std.TreeMap Nat Nat) (label : Label) : Label :=
  ⟨numbers.getD label.index numbers.size⟩

/-- The program with the labels of its lowered code numbered in the order of first appearance. -/
def Program.renumbered (p : Program) : Program :=
  let numbers := numbering (p.functions.flatMap (·.body.labels))
  { p with
    functions := p.functions.map fun f => { f with body := f.body.mapLabels (renumber numbers) } }

end Parcel.Code
