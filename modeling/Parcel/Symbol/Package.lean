import Parcel.Symbol.Basic

/-!
# Packages

A package holds functions and variables and names the packages it loads. The first registration of
a name stands; a second one is refused and changes nothing.
-/

namespace Parcel

/-- Functions in the order of registration, with an index of their places. -/
structure FunctionTable where
  list : List FunctionSymbol := []
  /-- The place in the list that belongs to a name. -/
  index : List (String × Nat) := []
  deriving DecidableEq, Repr

namespace FunctionTable

/-- Whether the index has a place for a name. -/
def contains (t : FunctionTable) (name : String) : Bool :=
  (t.index.lookup name).isSome

/-- The function in the place that the index has for a name. -/
def find? (t : FunctionTable) (name : String) : Option FunctionSymbol :=
  (t.index.lookup name).bind (t.list[·]?)

/-- The table with one more function, whose place is the next one. -/
def push (t : FunctionTable) (f : FunctionSymbol) : FunctionTable :=
  ⟨t.list ++ [f], t.index ++ [(f.name, t.list.length)]⟩

end FunctionTable

/-- A package. -/
structure Package where
  name : String
  table : FunctionTable := {}
  /-- The variables, in the order of registration. -/
  globals : List Var := []
  /-- The packages that may be named in qualified calls, in the order of loading. -/
  loads : List String := []
  /-- The loaded packages that unqualified calls are looked up in as well. -/
  includes : List String := []
  deriving DecidableEq, Repr

namespace Package

/-- The functions, in the order of registration. -/
def functions (p : Package) : List FunctionSymbol :=
  p.table.list

def function? (p : Package) (name : String) : Option FunctionSymbol :=
  p.table.find? name

def global? (p : Package) (name : String) : Option Var :=
  p.globals.find? (·.name = name)

theorem mem_of_function? {p : Package} {name : String} {f : FunctionSymbol}
    (h : p.function? name = some f) : f ∈ p.functions := by
  obtain ⟨_, -, hf⟩ := Option.bind_eq_some_iff.mp h
  exact List.mem_of_getElem? hf

/-- The package with one more function, unless the name is taken. -/
def registerFunction? (p : Package) (f : FunctionSymbol) : Option Package :=
  if p.table.contains f.name then none
  else some { p with table := p.table.push f }

/-- The package with one more variable, unless the name is taken. -/
def registerGlobal? (p : Package) (v : Var) : Option Package :=
  if (p.global? v.name).isSome then none
  else some { p with globals := p.globals ++ [v] }

/-- The names with one more at the end, unless it is among them. -/
def addName (names : List String) (name : String) : List String :=
  if name ∈ names then names else names ++ [name]

/-- The package with one more package loaded, and searched in unqualified calls if `included`. -/
def addLoad (p : Package) (loaded : String) (included : Bool) : Package :=
  { p with
    loads := addName p.loads loaded
    includes := if included then addName p.includes loaded else p.includes }

/-- Whether a package may be named in a qualified call from this one. -/
def canReference (p : Package) (other : String) : Bool :=
  other = p.name || p.loads.contains other

end Package

end Parcel
