import Parcel.Symbol.Ty

/-!
# Symbols

Variables, functions and containers as the later stages know them. Variables and functions are told
apart by their ids, which are handed out in order.
-/

namespace Parcel

/-- The identity of a variable. -/
structure VarId where
  index : Nat
  deriving DecidableEq, Repr

/-- The identity of a function. -/
structure FunctionId where
  index : Nat
  deriving DecidableEq, Repr

/-- A target of jumps inside one function body. -/
structure Label where
  index : Nat
  deriving DecidableEq, Repr

def Label.shown (label : Label) : String :=
  s!"L{label.index}"

/-- Where a variable lives. -/
inductive VarKind where
  | local
  | parameter
  /-- A variable of a package, shared by all calls. -/
  | global
  /-- A field of a container. -/
  | field
  /-- The receiver of a method. -/
  | receiver
  deriving DecidableEq, Repr

/-- A variable. -/
structure Var where
  id : VarId
  name : String
  type : Ty
  kind : VarKind
  deriving DecidableEq, Repr

/-- Whether the variable is shared by all calls. -/
def Var.isGlobal (v : Var) : Bool :=
  v.kind = .global

/-- The functions and methods that the machine provides itself. -/
inductive Native where
  /-- Writes a text and a line end. -/
  | print
  /-- Writes a text. -/
  | write
  /-- Ends the run with an exit code. -/
  | exit
  | sqrt
  | abs
  /-- Makes an empty text builder. -/
  | builder
  /-- Adds a text to a builder. -/
  | append
  /-- The text of a builder. -/
  | build
  /-- The number of characters of a builder. -/
  | length
  /-- Empties a builder. -/
  | clear
  deriving DecidableEq, Repr

/-- Whether it is called on a receiver. -/
def Native.isMethod : Native → Bool
  | .append | .build | .length | .clear => true
  | .print | .write | .exit | .sqrt | .abs | .builder => false

/-- How the body of a function is provided. -/
inductive FunctionKind where
  /-- The body is in the program, under the id of the function. -/
  | interpreted
  | native (callable : Native)
  deriving DecidableEq, Repr

/-- A function. -/
structure FunctionSymbol where
  id : FunctionId
  name : String
  package : String
  params : List Var
  returnType : Ty
  /-- The receiver of a method. -/
  receiver : Option Var
  kind : FunctionKind
  deriving DecidableEq, Repr

namespace FunctionSymbol

def qualifiedName (f : FunctionSymbol) : String :=
  f.package ++ "::" ++ f.name

/-- Whether the machine provides the function itself. -/
def isNative (f : FunctionSymbol) : Bool :=
  f.kind != .interpreted

end FunctionSymbol

/-- A structure with fields and methods. -/
structure Container where
  type : Ty
  fields : List Var
  methods : List FunctionSymbol
  deriving DecidableEq, Repr

def Container.method? (container : Container) (name : String) : Option FunctionSymbol :=
  container.methods.find? (·.name = name)

/-- The next id of each kind. -/
structure Ids where
  nextVar : Nat := 0
  nextFunction : Nat := 0
  nextLabel : Nat := 0
  deriving DecidableEq, Repr, Inhabited

namespace Ids

def freshVar (ids : Ids) (name : String) (type : Ty) (kind : VarKind) : Var × Ids :=
  (⟨⟨ids.nextVar⟩, name, type, kind⟩, { ids with nextVar := ids.nextVar + 1 })

def freshFunction (ids : Ids) : FunctionId × Ids :=
  (⟨ids.nextFunction⟩, { ids with nextFunction := ids.nextFunction + 1 })

def freshLabel (ids : Ids) : Label × Ids :=
  (⟨ids.nextLabel⟩, { ids with nextLabel := ids.nextLabel + 1 })

end Ids

end Parcel
