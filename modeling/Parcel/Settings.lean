import Parcel.Machine.Eval
import Parcel.Toml.Reader

/-!
# Settings

Which function a program starts with and how it is run. A configuration file may set each of these;
a key that it does not know is refused.
-/

namespace Parcel

/-- The settings of a program. -/
structure Settings where
  /-- The package of the function that the program starts with. -/
  package : String := "main"
  /-- The function that the program starts with. -/
  function : String := "main"
  mode : Mode := {}
  deriving DecidableEq, Repr

namespace Settings

def setPackage? (s : Settings) : Toml.Item → Option Settings
  | .string value => some { s with package := value }
  | _ => none

def setFunction? (s : Settings) : Toml.Item → Option Settings
  | .string value => some { s with function := value }
  | _ => none

/-- Sets the number of calls that may be unfinished at the same time. -/
def setMaxCallDepth? (s : Settings) : Toml.Item → Option Settings
  | .integer value =>
    if 0 ≤ value then some { s with mode := { s.mode with maxCallDepth := value.toNat } } else none
  | _ => none

/-- Sets whether every fault ends the run. -/
def setStrict? (s : Settings) : Toml.Item → Option Settings
  | .bool value => some { s with mode := { s.mode with strict := value } }
  | _ => none

/-- A way to set one of the settings. -/
abbrev Setter := Settings → Toml.Item → Option Settings

/-- The settings of the section `entry`, in order. -/
def entrySetters : List (String × Setter) :=
  [("package", setPackage?), ("function", setFunction?)]

/-- The settings of the section `runtime`, in order. -/
def runtimeSetters : List (String × Setter) :=
  [("max_call_depth", setMaxCallDepth?), ("strict", setStrict?)]

/-- Applies setters to items in order; what has no counterpart is passed over. -/
def setInOrder? (s : Settings) : List (String × Setter) → List Toml.Item → Option Settings
  | (_, setter) :: setters, item :: items => do
    let s ← setter s item
    setInOrder? s setters items
  | _, _ => some s

/-- A section: a table with the settings by name, or an array with the settings in order. -/
def setSection? (setters : List (String × Setter)) (s : Settings) : Toml.Item → Option Settings
  | .table _ entries =>
    entries.foldlM (fun s (name, item) => do (← setters.lookup name) s item) s
  | .array items => setInOrder? s setters items
  | _ => none

def sections : List (String × Setter) :=
  [("entry", setSection? entrySetters), ("runtime", setSection? runtimeSetters)]

def ofTable? (table : Toml.Table) : Option Settings :=
  table.foldlM (fun s (name, item) => do (← sections.lookup name) s item) {}

def read? (text : String) : Option Settings :=
  Toml.read? text >>= ofTable?

end Settings

end Parcel
