import Parcel.Machine.Value
import Parcel.Number.Binary

/-!
# Operators on values

Integers of one width are added, multiplied and divided exactly and then wrapped to their width;
division goes toward zero. Floating-point numbers follow their own arithmetic, in which division by
zero is no fault. Texts are joined, and everything can be compared with a value of its own kind.
-/

namespace Parcel

namespace Word

/-- The result of an arithmetic operator on two numbers, before it is wrapped. -/
def unwrapped? (op : Code.BinaryOp) (a b : Int) : Option Int :=
  match op with
  | .add => some (a + b)
  | .sub => some (a - b)
  | .mul => some (a * b)
  | .div => some (a.tdiv b)
  | .rem => some (a.tmod b)
  | _ => none

def divides : Code.BinaryOp → Bool
  | .div | .rem => true
  | _ => false

end Word

namespace Value

/-- The result of an operator that compares two operands, given how they compare. -/
def comparison? (op : Code.BinaryOp) (equal less greater : Bool) : Option Bool :=
  match op with
  | .eq => some equal
  | .ne => some (!equal)
  | .lt => some less
  | .gt => some greater
  | .le => some (less || equal)
  | .ge => some (greater || equal)
  | _ => none

def compareNumbers (op : Code.BinaryOp) (equal less greater : Bool) : Except FaultCause Value :=
  match comparison? op equal less greater with
  | some result => .ok (bool result)
  | none => .error (.operandMismatch "bool or string" s!"numeric operands of `{op.spelling}`")

def compareEquality (op : Code.BinaryOp) (equal : Bool) : Except FaultCause Value :=
  match op with
  | .eq => .ok (bool equal)
  | .ne => .ok (bool !equal)
  | _ => .error (.operandMismatch "numeric" s!"operands of `{op.spelling}`")

def integerBinary (op : Code.BinaryOp) (width : Width) (a b : Int) : Except FaultCause Value :=
  match Word.unwrapped? op a b with
  | some result =>
    if Word.divides op && b = 0 then .error .divisionByZero
    else .ok (integer (Word.wrap width result))
  | none => compareNumbers op (a = b) (decide (a < b)) (decide (b < a))

/-- An operator on two numbers of type `float`. -/
def floatBinary (op : Code.BinaryOp) (a b : Float32) : Except FaultCause Value :=
  match op with
  | .add => .ok (float (a + b))
  | .sub => .ok (float (a - b))
  | .mul => .ok (float (a * b))
  | .div => .ok (float (a / b))
  | .rem => .ok (float ((Binary.ofFloat32 a).remainder (Binary.ofFloat32 b)).toFloat32)
  | _ => compareNumbers op (a == b) (a < b) (b < a)

/-- An operator on two numbers of type `double`. -/
def doubleBinary (op : Code.BinaryOp) (a b : Float) : Except FaultCause Value :=
  match op with
  | .add => .ok (double (a + b))
  | .sub => .ok (double (a - b))
  | .mul => .ok (double (a * b))
  | .div => .ok (double (a / b))
  | .rem => .ok (double ((Binary.ofFloat a).remainder (Binary.ofFloat b)).toFloat)
  | _ => compareNumbers op (a == b) (a < b) (b < a)

/-- An operator on two truth values, both of which are known. -/
def boolBinary (op : Code.BinaryOp) (a b : Bool) : Except FaultCause Value :=
  match op with
  | .and => .ok (bool (a && b))
  | .or => .ok (bool (a || b))
  | _ => compareEquality op (a = b)

/-- An operator on two texts. -/
def stringBinary (op : Code.BinaryOp) (a b : String) : Except FaultCause Value :=
  match op with
  | .concat => .ok (string (a ++ b))
  | _ => compareEquality op (a = b)

/-- A binary operator on two values of the same kind. -/
def binary (op : Code.BinaryOp) (left right : Value) : Except FaultCause Value :=
  match left, right with
  | integer a, integer b =>
    if a.width = b.width then integerBinary op a.width a.val b.val
    else .error (mismatch left.kindName right)
  | float a, float b => floatBinary op a b
  | double a, double b => doubleBinary op a b
  | bool a, bool b => boolBinary op a b
  | string a, string b => stringBinary op a b
  | array a, array b => compareEquality op (a = b)
  | container a, container b => compareEquality op (a = b)
  | _, _ => .error (mismatch left.kindName right)

def unary (op : Code.UnaryOp) (v : Value) : Except FaultCause Value :=
  match op, v with
  | .identity, integer a => .ok (integer a)
  | .identity, float a => .ok (float a)
  | .identity, double a => .ok (double a)
  | .negate, integer a => .ok (integer (Word.wrap a.width (-a.val)))
  | .negate, float a => .ok (float (-a))
  | .negate, double a => .ok (double (-a))
  | .logicalNot, bool a => .ok (bool !a)
  | _, _ => .error (mismatch "numeric or bool" v)

end Value

end Parcel
