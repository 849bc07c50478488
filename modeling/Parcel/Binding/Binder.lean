import Parcel.Binding.Error
import Parcel.Code.Tree
import Parcel.Symbol.Catalog
import Parcel.Symbol.Scope

/-!
# The binder

Binding goes through the files of a program with one state. It holds what is built, and the place at
which binding is: the file and its package, the function, the scopes and the loops around.
-/

namespace Parcel

/-- What binding builds. -/
structure Build where
  catalog : Catalog
  ids : Ids
  program : Code.Program
  errors : Array FileError

/-- What is built, and where binding is. -/
structure Binder extends Build where
  file : Option Nat
  /-- The name of the package that the file belongs to. -/
  package : String
  /-- The function whose body is bound; none outside of functions. -/
  function : Option FunctionSymbol
  scopes : Scopes
  /-- The labels of the loops around, the innermost first. -/
  loops : List Code.LoopLabels

/-- Computations of the binder. -/
abbrev BindM := StateM Binder

namespace BindM

/-- Reports an error in the file that is bound. -/
def report (cause : BindCause) (span : Span) : BindM Unit :=
  modify fun b => { b with errors := b.errors.push ⟨b.file, ⟨cause, span⟩⟩ }

/-- A new variable. -/
def freshVar (name : String) (type : Ty) (kind : VarKind) : BindM Var :=
  modifyGet fun b =>
    let (v, ids) := b.ids.freshVar name type kind
    (v, { b with ids })

/-- The labels of a loop: the one for `break` is taken first. -/
def freshLoopLabels : BindM Code.LoopLabels :=
  modifyGet fun b =>
    let (onBreak, ids) := b.ids.freshLabel
    let (onContinue, ids) := ids.freshLabel
    (⟨onBreak, onContinue⟩, { b with ids })

/-- Enters a scope. -/
def enter : BindM Unit :=
  modify fun b => { b with scopes := b.scopes.push }

/-- Leaves a scope. -/
def leave : BindM Unit :=
  modify fun b => { b with scopes := b.scopes.pop }

/-- Declares a variable in the innermost scope; false if its name is taken there. -/
def declare (v : Var) : BindM Bool :=
  modifyGet fun b =>
    match b.scopes.declare? v with
    | some scopes => (true, { b with scopes })
    | none => (false, b)

/-- Enters a loop. -/
def enterLoop (labels : Code.LoopLabels) : BindM Unit :=
  modify fun b => { b with loops := labels :: b.loops }

/-- Leaves the innermost loop. -/
def leaveLoop : BindM Unit :=
  modify fun b => { b with loops := b.loops.tail }

end BindM

end Parcel
