import Parcel.Machine.Value
import Parcel.Number.Layout
import Parcel.Symbol.Catalog

/-!
# The heap

Objects are allocated one after the other and never freed. A snapshot is a value together with all
the objects that it refers to, and is what a value is shown as.
-/

namespace Parcel

/-- A list of named values, of which each name has one. -/
abbrev Fields := List (String × Value)

namespace Fields

def get? (fields : Fields) (name : String) : Option Value :=
  fields.lookup name

/-- Gives a field a value; a new field goes to the end. -/
def set (fields : Fields) (name : String) (value : Value) : Fields :=
  match fields with
  | [] => [(name, value)]
  | field :: rest =>
    if field.1 = name then (name, value) :: rest else field :: set rest name value

end Fields

/-- An array or a container. -/
inductive Object where
  | array (element : Ty) (elements : Array Value)
  | container (type : Ty) (fields : Fields)

instance : Inhabited Object := ⟨.array .void #[]⟩

/-- The objects in the order of allocation. -/
structure Heap where
  objects : Array Object

namespace Heap

def empty : Heap := ⟨#[]⟩

def get? (heap : Heap) (address : Address) : Option Object :=
  heap.objects[address.index]?

def elements? (heap : Heap) (address : Address) : Option (Array Value) :=
  match heap.get? address with
  | some (.array _ elements) => some elements
  | _ => none

def allocate (heap : Heap) (object : Object) : Address × Heap :=
  (⟨heap.objects.size⟩, ⟨heap.objects.push object⟩)

def newArray (heap : Heap) (element : Ty) (elements : Array Value) : Value × Heap :=
  let (address, heap) := heap.allocate (.array element elements)
  (.array address, heap)

def newContainer (heap : Heap) (type : Ty) (fields : Fields) : Value × Heap :=
  let (address, heap) := heap.allocate (.container type fields)
  (.container address, heap)

/-- Stores a value in an element of an array; other objects stay as they are. -/
def setElement (heap : Heap) (address : Address) (index : Nat) (value : Value) : Heap :=
  ⟨heap.objects.modify address.index fun
    | .array element elements => .array element (elements.setIfInBounds index value)
    | object => object⟩

/-- Stores a value in a field of a container; other objects stay as they are. -/
def setField (heap : Heap) (address : Address) (name : String) (value : Value) : Heap :=
  ⟨heap.objects.modify address.index fun
    | .container type fields => .container type (fields.set name value)
    | object => object⟩

end Heap

/-! ### Snapshots -/

/-- A value without references. -/
inductive Snapshot where
  | integer (value : Word)
  | float (value : Float32)
  | double (value : Float)
  | bool (value : Bool)
  | string (value : String)
  | array (element : Ty) (elements : List Snapshot)
  | container (type : Ty) (fields : List (String × Snapshot))
  | void

namespace Snapshot

def separated (texts : List String) : String :=
  String.intercalate ", " texts

mutual

def shown : Snapshot → String
  | integer value => toString value.val
  | float value => valueLayout.float32 value
  | double value => valueLayout.float value
  | bool value => if value then "true" else "false"
  | string value => value
  | array _ elements => "[" ++ separated (elementsShown elements) ++ "]"
  | container type _ => "<" ++ type.shown ++ ">"
  | void => ""

def elementsShown : List Snapshot → List String
  | [] => []
  | element :: elements => element.shown :: elementsShown elements

end

end Snapshot

namespace Heap

/-- A value with the objects that it refers to, down to `depth` objects. -/
def snapshotTo (heap : Heap) (depth : Nat) (v : Value) : Snapshot :=
  match v with
  | .integer value => .integer value
  | .float value => .float value
  | .double value => .double value
  | .bool value => .bool value
  | .string value => .string value
  | .void => .void
  | .array address | .container address =>
    match depth with
    | 0 => .void
    | depth + 1 =>
      match heap.get? address with
      | some (.array element elements) =>
        .array element (elements.toList.map fun v => heap.snapshotTo depth v)
      | some (.container type fields) =>
        .container type (fields.map fun field => (field.1, heap.snapshotTo depth field.2))
      | none => .void

/-- A value with all the objects that it refers to. On a heap without cycles a path passes through
each object once at most. -/
def snapshot (heap : Heap) (v : Value) : Snapshot :=
  heap.snapshotTo heap.objects.size v

def shown (heap : Heap) (v : Value) : String :=
  (heap.snapshot v).shown

mutual

def load (heap : Heap) : Snapshot → Value × Heap
  | .integer value => (.integer value, heap)
  | .float value => (.float value, heap)
  | .double value => (.double value, heap)
  | .bool value => (.bool value, heap)
  | .string value => (.string value, heap)
  | .void => (.void, heap)
  | .array element elements =>
    let (elements, heap) := heap.loadAll elements
    heap.newArray element elements.toArray
  | .container type fields =>
    let (fields, heap) := heap.loadFields fields
    heap.newContainer type (fields.foldl (fun all field => all.set field.1 field.2) [])

/-- Values of which given snapshots can be taken. -/
def loadAll (heap : Heap) : List Snapshot → List Value × Heap
  | [] => ([], heap)
  | snapshot :: rest =>
    let (value, heap) := heap.load snapshot
    let (values, heap) := heap.loadAll rest
    (value :: values, heap)

def loadFields (heap : Heap) : List (String × Snapshot) → Fields × Heap
  | [] => ([], heap)
  | (name, snapshot) :: rest =>
    let (value, heap) := heap.load snapshot
    let (fields, heap) := heap.loadFields rest
    ((name, value) :: fields, heap)

end

/-! ### Default values -/

/-- The default value of a type, in which containers are nested `depth` deep at most. -/
def defaultTo (catalog : Catalog) (depth : Nat) (heap : Heap) (type : Ty) : Value × Heap :=
  match type with
  | .integer width => (.integer (Word.wrap width 0), heap)
  | .float => (.float 0, heap)
  | .double => (.double 0, heap)
  | .bool => (.bool false, heap)
  | .string => (.string "", heap)
  | .void | .unresolved => (.void, heap)
  | .array element => heap.newArray element #[]
  | .container name =>
    match depth with
    | 0 => (.void, heap)
    | depth + 1 =>
      match catalog.container? (.container name) with
      | some container =>
        let (fields, heap) := container.fields.foldl
          (fun (fields, heap) field =>
            let (value, heap) := defaultTo catalog depth heap field.type
            (Fields.set fields field.name value, heap))
          ([], heap)
        heap.newContainer type fields
      | none => (.void, heap)

/-- The default value of a type: zero, the empty text or array, or a container of default values.
Containers that do not contain themselves are nested no deeper than there are containers. -/
def default (heap : Heap) (catalog : Catalog) (type : Ty) : Value × Heap :=
  defaultTo catalog catalog.containers.length heap type

def addDefaults (heap : Heap) (catalog : Catalog) (type : Ty) (values : Array Value) :
    Nat → Array Value × Heap
  | 0 => (values, heap)
  | count + 1 =>
    let (value, heap) := heap.default catalog type
    heap.addDefaults catalog type (values.push value) count

def defaults (heap : Heap) (catalog : Catalog) (type : Ty) (count : Nat) : Array Value × Heap :=
  heap.addDefaults catalog type #[] count

end Heap

end Parcel
