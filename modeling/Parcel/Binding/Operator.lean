import Parcel.Code.Tree
import Parcel.Syntax.Tree

/-!
# The meaning of operators

Which operator of the machine an operator of the source stands for, given the types of its operands.
Two numbers of one family meet in the wider of their types.
-/

namespace Parcel

/-- A binary operator of the machine, the type that both operands are converted to, and the type of
the result. -/
structure BinaryMeaning where
  op : Code.BinaryOp
  operand : Ty
  result : Ty
  deriving DecidableEq, Repr

/-- A unary operator of the machine and the type of the result. -/
structure UnaryMeaning where
  op : Code.UnaryOp
  result : Ty
  deriving DecidableEq, Repr

/-- Whether both types are numbers of one family. -/
def sameFamily (left right : Ty) : Bool :=
  left.isNumeric && left.group = right.group

def wider (left right : Ty) : Ty :=
  if left.size < right.size then right else left

/-- Whether values of a type can be compared with each other. -/
def isComparable (type : Ty) : Bool :=
  type ≠ .void && type ≠ .unresolved

/-- An operator from two numbers to a number of their type. -/
def arithmetic (op : Code.BinaryOp) (left right : Ty) : Option BinaryMeaning :=
  if sameFamily left right then some ⟨op, wider left right, wider left right⟩ else none

def ordering (op : Code.BinaryOp) (left right : Ty) : Option BinaryMeaning :=
  if sameFamily left right then some ⟨op, wider left right, .bool⟩ else none

/-- An operator that compares two numbers, or two values of the same type. -/
def equality (op : Code.BinaryOp) (left right : Ty) : Option BinaryMeaning :=
  if sameFamily left right then some ⟨op, wider left right, .bool⟩
  else if left = right ∧ isComparable left then some ⟨op, left, .bool⟩
  else none

/-- An operator on two truth values. -/
def logical (op : Code.BinaryOp) (left right : Ty) : Option BinaryMeaning :=
  if left = .bool ∧ right = .bool then some ⟨op, .bool, .bool⟩ else none

/-- The meaning of a binary operator for operands of these types. -/
def resolveBinary (op : Syntax.BinaryOp) (left right : Ty) : Option BinaryMeaning :=
  match op with
  | .add =>
    if left = .string ∧ right = .string then some ⟨.concat, .string, .string⟩
    else arithmetic .add left right
  | .sub => arithmetic .sub left right
  | .mul => arithmetic .mul left right
  | .div => arithmetic .div left right
  | .rem => arithmetic .rem left right
  | .lt => ordering .lt left right
  | .gt => ordering .gt left right
  | .le => ordering .le left right
  | .ge => ordering .ge left right
  | .eq => equality .eq left right
  | .ne => equality .ne left right
  | .and => logical .and left right
  | .or => logical .or left right

def resolveUnary (op : Syntax.UnaryOp) (operand : Ty) : Option UnaryMeaning :=
  match op with
  | .neg => if operand.isNumeric then some ⟨.negate, operand⟩ else none
  | .plus => if operand.isNumeric then some ⟨.identity, operand⟩ else none
  | .not => if operand = .bool then some ⟨.logicalNot, .bool⟩ else none

end Parcel
