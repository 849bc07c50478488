import Parcel.Code.Tree
import Parcel.Machine.Fault

/-!
# Values

Numbers, truth values and texts are values themselves; arrays and containers are objects on a heap,
to which values refer. Copying a reference does not copy the object.
-/

namespace Parcel

/-- The address of an object on the heap. -/
structure Address where
  index : Nat
  deriving DecidableEq, Repr

/-- A value. -/
inductive Value where
  | integer (value : Word)
  | float (value : Float32)
  | double (value : Float)
  | bool (value : Bool)
  | string (value : String)
  | array (address : Address)
  | container (address : Address)
  | void

namespace Value

instance : Inhabited Value := ⟨void⟩

def ofConstant : Code.Constant → Value
  | .int value => integer value
  | .float value => float value
  | .bool value => bool value
  | .string value => string value

def kindName : Value → String
  | integer value => (Ty.integer value.width).name
  | float _ => "float"
  | double _ => "double"
  | bool _ => "bool"
  | string _ => "string"
  | array _ => "array"
  | container _ => "container"
  | void => "void"

/-- The number of an integer of any width. -/
def integer? : Value → Option Int
  | integer value => some value.val
  | _ => none

def float? : Value → Option Float
  | float value => some value.toFloat
  | double value => some value
  | _ => none

def mismatch (expected : String) (found : Value) : FaultCause :=
  .operandMismatch expected found.kindName

def asBool : Value → Except FaultCause Bool
  | bool value => .ok value
  | other => .error (mismatch "bool" other)

def asInteger (v : Value) : Except FaultCause Int :=
  match v.integer? with
  | some n => .ok n
  | none => .error (mismatch "integer" v)

def asString : Value → Except FaultCause String
  | string value => .ok value
  | other => .error (mismatch "string" other)

/-- Whether two values are the same: scalars by value, objects by identity. A floating-point value
that is no number differs from itself. -/
def same : Value → Value → Bool
  | integer a, integer b => a = b
  | float a, float b => a == b
  | double a, double b => a == b
  | bool a, bool b => a = b
  | string a, string b => a = b
  | array a, array b => a = b
  | container a, container b => a = b
  | void, void => true
  | _, _ => false

end Value

end Parcel
