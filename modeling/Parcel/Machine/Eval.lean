import Parcel.Machine.Convert
import Parcel.Machine.Native
import Parcel.Machine.Operation

/-!
# Evaluation of expressions

Operands are evaluated from left to right. A fault is placed at the innermost expression in which it
arises. After a recoverable fault the evaluation goes on with a value of the type that is missing,
unless the mode is strict.
-/

namespace Parcel

/-- How a program is run. -/
structure Mode where
  /-- The number of calls that may be unfinished at the same time. -/
  maxCallDepth : Nat := 10000
  /-- Whether every fault ends the run. -/
  strict : Bool := false
  deriving DecidableEq, Repr

/-- What a run executes. -/
structure Machine where
  program : Code.Program
  catalog : Catalog
  mode : Mode

/-- How a function is called with arguments and a receiver. -/
abbrev Invoke := FunctionSymbol → List Value → Option Value → Exec Value

/-! ### Variables and faults -/

def loadVar (v : Var) : Exec Value := do
  let s ← get
  let found :=
    if v.isGlobal then s.globals.get? v.id
    else s.stack.top?.bind (·.locals.get? v.id)
  match found with
  | some value => return value
  | none => Exec.fail (.unresolvedVariable v.name)

def storeVar (v : Var) (value : Value) : Exec Unit := do
  if v.isGlobal then
    modify (State.onGlobals (·.set v.id value))
  else if (← get).stack.top?.isSome then
    Exec.modifyFrame fun frame => { frame with locals := frame.locals.set v.id value }
  else
    Exec.fail (.unresolvedVariable v.name)

/-- Places the fault of a computation, if it has one that is not yet placed. -/
def placing {α : Type} (span : Span) (action : Exec α) : Exec α := fun s =>
  match action s with
  | .error (.fault f) s => .error (.fault (f.placed ⟨span, s.file⟩)) s
  | result => result

/-- Goes on with `placeholder` after a recoverable fault. -/
def recover (mode : Mode) (cause : FaultCause) (span : Span) (placeholder : Value) :
    Exec Value := do
  let fault : Fault := ⟨cause, some ⟨span, (← get).file⟩⟩
  if mode.strict || !cause.isRecoverable then
    throw (.fault fault)
  else
    modify (State.addRecovered fault)
    return placeholder

def orDefault (m : Machine) (result : Except FaultCause Value) (type : Ty) (span : Span) :
    Exec Value :=
  match result with
  | .ok value => return value
  | .error cause => do
    let placeholder ← Exec.onHeap (·.default m.catalog type)
    recover m.mode cause span placeholder

def elementAt (elements : Array Value) (index : Int) : Except FaultCause Value :=
  let outside := Except.error (.indexOutOfBounds index elements.size)
  if index < 0 then outside
  else
    match elements[index.toNat]? with
    | some value => .ok value
    | none => outside

def arrayAddress : Value → Exec Address
  | .array address => return address
  | other => Exec.fail (Value.mismatch "array" other)

def loadElement (m : Machine) (array : Value) (index : Int) (type : Ty) (span : Span) :
    Exec Value := do
  let address ← arrayAddress array
  let elements := ((← get).heap.elements? address).getD #[]
  orDefault m (elementAt elements index) type span

def storeElement (m : Machine) (array : Value) (index : Int) (value : Value) (span : Span) :
    Exec Value := do
  let address ← arrayAddress array
  let length := (((← get).heap.elements? address).getD #[]).size
  if 0 ≤ index ∧ index < length then
    Exec.onHeap fun heap => (value, heap.setElement address index.toNat value)
  else
    recover m.mode (.indexOutOfBounds index length) span value

/-- A new array of so many default values; an empty one after a negative length. -/
def makeArray (m : Machine) (length : Int) (type : Ty) (span : Span) : Exec Value := do
  let element := type.element?.getD .unresolved
  if length < 0 then
    let empty ← Exec.onHeap (·.newArray element #[])
    recover m.mode (.negativeLength length) span empty
  else
    let elements ← Exec.onHeap (·.defaults m.catalog element length.toNat)
    Exec.onHeap (·.newArray element elements)

/-! ### Expressions -/

mutual

def eval (m : Machine) (invoke : Invoke) : Code.Expr → Exec Value
  | .literal value _ => return .ofConstant value
  | .paren inner span => placing span (eval m invoke inner)
  | .name v span => placing span (loadVar v)
  | .assign (.name v _) value span => placing span do
    let value ← eval m invoke value
    storeVar v value
    return value
  | .assign (.index array index _ targetSpan) value span => placing span do
    let array ← eval m invoke array
    let index ← eval m invoke index
    let index ← Exec.ofExcept index.asInteger
    let value ← eval m invoke value
    storeElement m array index value targetSpan
  | .assign _ _ span => placing span (Exec.fail .unresolvedNode)
  | .unary op operand _ span => placing span do
    let operand ← eval m invoke operand
    Exec.ofExcept (operand.unary op)
  | .binary left .and right _ span => placing span do
    let left ← eval m invoke left
    if ← Exec.ofExcept left.asBool then
      let right ← eval m invoke right
      let right ← Exec.ofExcept right.asBool
      return .bool right
    else
      return .bool false
  | .binary left .or right _ span => placing span do
    let left ← eval m invoke left
    if ← Exec.ofExcept left.asBool then
      return .bool true
    else
      let right ← eval m invoke right
      let right ← Exec.ofExcept right.asBool
      return .bool right
  | .binary left op right type span => placing span do
    let left ← eval m invoke left
    let right ← eval m invoke right
    orDefault m (Value.binary op left right) type span
  | .call f arguments span => placing span do
    let arguments ← evalAll m invoke arguments
    invoke f arguments none
  | .methodCall f receiver arguments span => placing span do
    let receiver ← eval m invoke receiver
    let arguments ← evalAll m invoke arguments
    invoke f arguments (some receiver)
  | .conversion operand type span => placing span do
    let operand ← eval m invoke operand
    let heap := (← get).heap
    orDefault m (heap.convert type operand) type span
  | .makeLength length type span => placing span do
    let length ← eval m invoke length
    let length ← Exec.ofExcept length.asInteger
    makeArray m length type span
  | .makeElements elements type span => placing span do
    let elements ← evalAll m invoke elements
    Exec.onHeap (·.newArray (type.element?.getD .unresolved) elements.toArray)
  | .index target index type span => placing span do
    let target ← eval m invoke target
    let index ← eval m invoke index
    let index ← Exec.ofExcept index.asInteger
    loadElement m target index type span
  | .unresolved span => placing span (Exec.fail .unresolvedNode)

def evalAll (m : Machine) (invoke : Invoke) : List Code.Expr → Exec (List Value)
  | [] => return []
  | e :: rest => do
    let value ← eval m invoke e
    let values ← evalAll m invoke rest
    return value :: values

end

/-! ### Statements -/

/-- The position of a label in the innermost frame. -/
def jump (label : Label) : Exec Nat := do
  match (← get).stack.top?.bind (·.position? label) with
  | some position => return position
  | none => Exec.fail (.unresolvedLabel label)

/-- The number one step from `current` toward `goal`. -/
def stepToward (current goal : Int) : Int :=
  if current < goal then current + 1
  else if goal < current then current - 1
  else current

/-- The effect of a statement; a position is where the run goes on if not after it. -/
def execute (m : Machine) (invoke : Invoke) : Code.Stmt → Exec (Option Nat)
  | .declare v (some e) => do
    let value ← eval m invoke e
    storeVar v value
    return none
  | .declare v none => do
    let value ← Exec.onHeap (·.default m.catalog v.type)
    storeVar v value
    return none
  | .ret (some e) => do
    let value ← eval m invoke e
    Exec.modifyFrame fun frame => { frame with result := value, returned := true }
    return none
  | .ret none => do
    Exec.modifyFrame fun frame => { frame with returned := true }
    return none
  | .expr e => do
    let _ ← eval m invoke e
    return none
  | .label _ => return none
  | .goto label => do
    let position ← jump label
    return some position
  | .gotoIf condition label => do
    let value ← eval m invoke condition
    if ← Exec.ofExcept value.asBool then
      let position ← jump label
      return some position
    else
      return none
  | .delete v => do
    Exec.modifyFrame fun frame => { frame with locals := frame.locals.erase v.id }
    return none
  | .approach v target => do
    let current ← loadVar v
    let current ← Exec.ofExcept current.asInteger
    let goal ← loadVar target
    let goal ← Exec.ofExcept goal.asInteger
    let step : Value := .integer (Word.wrap .long (stepToward current goal))
    let heap := (← get).heap
    let value ← Exec.ofExcept (heap.convert v.type step)
    storeVar v value
    return none
  | .whileLoop _ _ _ | .forLoop _ _ _ _ _ | .fromTo _ _ _ _ _ | .loop _ _ _ _ | .block _
  | .ifElse _ _ _ => do
    let function := ((← get).stack.top?.map (·.function)).getD ""
    Exec.fail (.unlowered function)

end Parcel
