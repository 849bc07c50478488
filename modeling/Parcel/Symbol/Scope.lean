import Parcel.Symbol.Basic
import Parcel.Text.Suggestion

/-!
# Scopes

The variables visible at a point of a body. Scopes are nested, the innermost first; the outermost
one holds the variables of the package. A variable hides those of the same name further out.
-/

namespace Parcel

/-- Nested scopes, the innermost first. -/
structure Scopes where
  chain : List (List Var)
  deriving DecidableEq, Repr

namespace Scopes

def depth (s : Scopes) : Nat :=
  s.chain.length

/-- Enters a new innermost scope. -/
def push (s : Scopes) : Scopes :=
  ⟨[] :: s.chain⟩

/-- Leaves the innermost scope; the outermost one stays. -/
def pop (s : Scopes) : Scopes :=
  match s.chain with
  | _ :: outer :: rest => ⟨outer :: rest⟩
  | chain => ⟨chain⟩

/-- Declares a variable in the innermost scope; none if its name is taken there. -/
def declare? (s : Scopes) (v : Var) : Option Scopes :=
  match s.chain with
  | [] => none
  | inner :: outer =>
    if inner.any (·.name = v.name) then none else some ⟨(inner ++ [v]) :: outer⟩

/-- The variable that a name refers to: the innermost one of that name. -/
def lookup? (s : Scopes) (name : String) : Option Var :=
  s.chain.findSome? fun scope => scope.find? (·.name = name)

/-- A single scope with the variables of a package; a name refers to the first one of that name. -/
def ofGlobals (globals : List Var) : Scopes :=
  ⟨[globals]⟩

/-- Every visible name, those of the innermost scope first. -/
def names (s : Scopes) : List String :=
  s.chain.flatMap fun scope => scope.map (·.name)

/-- Every visible name, in order and once. -/
def visibleNames (s : Scopes) : List String :=
  (Text.inOrder s.names).eraseReps

end Scopes

end Parcel
