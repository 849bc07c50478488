import Parcel.Binding.Stmt

/-!
# Binding of programs

The files of a program are bound together. Packages and their loads come first, then the signatures
of all functions, then the variables of packages, and the bodies of functions last; so a body may
refer to everything that any file declares.
-/

namespace Parcel

/-- Computations that build a program file by file. -/
abbrev BuildM := StateM Build

/-- A source file with its index. -/
structure SourceFile where
  index : Nat
  program : Syntax.Program

/-- The variables of a package, if it is there. -/
def Catalog.globalsOf (c : Catalog) (package : String) : List Var :=
  ((c.package? package).map (·.globals)).getD []

/-- The binder in a file, outside of loops; the variables of the package are in scope. -/
def Build.enter (build : Build) (file : SourceFile) (package : String)
    (function : Option FunctionSymbol) : Binder :=
  { build with
    file := some file.index
    package
    function
    scopes := Scopes.ofGlobals (build.catalog.globalsOf package)
    loops := [] }

namespace BuildM

/-- Runs the binder in a file, outside of functions. -/
def inFile {α : Type} (file : SourceFile) (action : BindM α) : BuildM α :=
  modifyGet fun build =>
    let (result, b) := action.run (build.enter file file.program.package none)
    (result, b.toBuild)

/-- A new id for a function. -/
def freshFunction : BuildM FunctionId :=
  modifyGet fun build =>
    let (id, ids) := build.ids.freshFunction
    (id, { build with ids })

/-- Changes the catalog unless the change is refused, which false tells. -/
def register (change : Catalog → Option Catalog) : BuildM Bool :=
  modifyGet fun build =>
    match change build.catalog with
    | some catalog => (true, { build with catalog })
    | none => (false, build)

end BuildM

open BuildM

/-! ### Packages and loads -/

def bindPackage (file : SourceFile) : BuildM Unit :=
  modify fun build => { build with catalog := build.catalog.ensurePackage file.program.package }

/-- Records a load of a file; other members are passed over. -/
def bindLoad (file : SourceFile) : Syntax.Member → BuildM Unit
  | .load package included => do
    let catalog := (← get).catalog
    if (catalog.package? package.text).isSome then
      modify fun build =>
        { build with catalog := build.catalog.addLoad file.program.package package.text included }
    else
      let suggestion := Text.closest package.text (catalog.packages.map (·.name))
      inFile file (BindM.report (.unknownPackage package.text suggestion) package.span)
  | _ => return

/-! ### Signatures -/

/-- A function whose body is still to be bound. -/
structure Pending where
  file : SourceFile
  decl : Syntax.FunctionDecl
  symbol : FunctionSymbol

/-- A parameter. -/
def bindParam (param : Syntax.Param) : BindM Var := do
  let type ← bindType param.type
  BindM.freshVar param.name.text type .parameter

/-- The type that a function returns: `void` if none is given. -/
def bindReturnType : Option Syntax.TypeClause → BindM Ty
  | some clause => bindType clause
  | none => return .void

/-- Registers the signature of a function; none if its name is taken. -/
def bindSignature (file : SourceFile) (decl : Syntax.FunctionDecl) : BuildM (Option Pending) := do
  let package := file.program.package
  let params ← inFile file (decl.params.mapM bindParam)
  let returnType ← inFile file (bindReturnType decl.returnType)
  let id ← freshFunction
  let symbol : FunctionSymbol :=
    ⟨id, decl.name.text, package, params, returnType, none, .interpreted⟩
  if ← register (·.registerFunction? package symbol) then
    return some ⟨file, decl, symbol⟩
  else
    inFile file (BindM.report (.duplicateFunction decl.name.text package) decl.name.span)
    return none

def bindSignatures (file : SourceFile) : BuildM (List Pending) := do
  let pending ← file.program.functions.mapM (bindSignature file)
  return pending.filterMap id

/-! ### Variables of packages -/

/-- Declares a variable of a package, whose initial value sees those declared before it; other
members are passed over. -/
def bindGlobal (file : SourceFile) : Syntax.Member → BuildM Unit
  | .global decl => do
    let package := file.program.package
    let (type, initializer) ← inFile file (bindVarDecl decl)
    let v ← inFile file (BindM.freshVar decl.name.text type .global)
    if ← register (·.registerGlobal? package v) then
      modify fun build =>
        { build with
          program := build.program.addGlobal package (some file.index) (.declare v initializer) }
    else
      inFile file (BindM.report (.duplicateGlobal decl.name.text package) decl.name.span)
  | _ => return

/-! ### Bodies -/

/-- Declares a parameter; the name of another one is reported. -/
def declareParam (v : Var) (param : Syntax.Param) : BindM Unit := do
  unless ← BindM.declare v do
    BindM.report (.duplicateParameter v.name) param.name.span

/-- The body of a function, in a scope of its parameters. -/
def bindBody (f : FunctionSymbol) (decl : Syntax.FunctionDecl) : BindM Code.Stmt := do
  BindM.enter
  (f.params.zip decl.params).forM fun (v, param) => declareParam v param
  let body ← bindStmt decl.body
  BindM.leave
  return body

/-- Binds the body of a function and adds it to the program. -/
def bindFunction (pending : Pending) : BuildM Unit :=
  modify fun build =>
    let symbol := pending.symbol
    let (body, b) := (bindBody symbol pending.decl).run
      (build.enter pending.file symbol.package (some symbol))
    let f : Code.Function := ⟨symbol, some pending.file.index, .structured body⟩
    { b.toBuild with program := b.program.insert f }

/-! ### Files -/

/-- Binds files, in order. -/
def buildFiles (files : List SourceFile) : BuildM Unit := do
  files.forM bindPackage
  files.forM fun file => file.program.members.forM (bindLoad file)
  let pending ← files.mapM bindSignatures
  files.forM fun file => file.program.members.forM (bindGlobal file)
  pending.flatten.forM bindFunction

def indexed (files : List Syntax.Program) : List SourceFile :=
  files.zipIdx.map fun (program, index) => ⟨index, program⟩

/-- The files of a program, bound on top of what is known already. -/
def bindFiles (catalog : Catalog) (ids : Ids) (files : List Syntax.Program) : Build :=
  ((buildFiles (indexed files)).run ⟨catalog, ids, .empty, #[]⟩).2

end Parcel
