import Parcel.Symbol.Package

/-!
# The catalog of packages, types and containers

Everything that a source file can refer to by name. The first registration of a name stands.
-/

namespace Parcel

/-- Packages, named types and containers, each in the order of registration. -/
structure Catalog where
  packages : List Package
  types : List Ty
  containers : List Container
  deriving DecidableEq, Repr

namespace Catalog

/-- The catalog of the built-in types, with no package. -/
def empty : Catalog := ⟨[], Ty.builtins, []⟩

def package? (c : Catalog) (name : String) : Option Package :=
  c.packages.find? (·.name = name)

/-- The catalog with a package of this name, which is created empty unless there is one. -/
def ensurePackage (c : Catalog) (name : String) : Catalog :=
  if (c.package? name).isSome then c
  else { c with packages := c.packages ++ [{ name }] }

/-- Replaces the package of a name by what `f` makes of it. -/
def update (c : Catalog) (name : String) (f : Package → Package) : Catalog :=
  { c with packages := c.packages.map fun p => if p.name = name then f p else p }

/-- Registers a function in a package, which is created if need be; none if the name is taken. -/
def registerFunction? (c : Catalog) (name : String) (f : FunctionSymbol) : Option Catalog :=
  let c := c.ensurePackage name
  match (c.package? name).bind (·.registerFunction? f) with
  | some p => some (c.update name fun _ => p)
  | none => none

/-- Registers a variable in a package, which is created if need be; none if the name is taken. -/
def registerGlobal? (c : Catalog) (name : String) (v : Var) : Option Catalog :=
  let c := c.ensurePackage name
  match (c.package? name).bind (·.registerGlobal? v) with
  | some p => some (c.update name fun _ => p)
  | none => none

/-- Records that a package loads another. -/
def addLoad (c : Catalog) (name loaded : String) (included : Bool) : Catalog :=
  (c.ensurePackage name).update name (·.addLoad loaded included)

def type? (c : Catalog) (name : String) : Option Ty :=
  c.types.find? (·.name = name)

/-- Registers a type under its name; none if the name is taken. -/
def registerType? (c : Catalog) (type : Ty) : Option Catalog :=
  if (c.type? type.name).isSome then none
  else some { c with types := c.types ++ [type] }

/-- Registers a container and its type; none if the name of the type is taken. -/
def registerContainer? (c : Catalog) (container : Container) : Option Catalog :=
  (c.registerType? container.type).map fun c =>
    { c with containers := c.containers ++ [container] }

def container? (c : Catalog) (type : Ty) : Option Container :=
  c.containers.find? (·.type = type)

end Catalog

end Parcel
