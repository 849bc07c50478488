import Parcel.Machine.State
import Parcel.Symbol.Sys

/-!
# Native functions

The functions of the package `sys` and the methods of its text builder. A method works on any
container and keeps its text in a field.
-/

namespace Parcel

namespace Native

def argument (arguments : List Value) (index : Nat) : Except FaultCause Value :=
  match arguments[index]? with
  | some value => .ok value
  | none => .error (.native (.missingArgument index))

def textArgument (arguments : List Value) : Except FaultCause String :=
  argument arguments 0 >>= Value.asString

/-- Writes a text. Nothing is asked of the device for an empty one. -/
def emit (text : String) : Exec Unit := do
  if text.isEmpty then return
  match ← Exec.ask (.write text) with
  | some reason => Exec.fail (.native (.write reason))
  | none => return

/-- Ends the run with a code, once everything is passed on. -/
def leave (code : Int) : Exec Value := do
  match ← Exec.ask .flush with
  | some reason => Exec.fail (.native (.flush reason))
  | none => Exec.fail (.exit (Word.wrap .int code).val)

/-- The square root of a `double`. -/
def squareRoot : Value → Except FaultCause Value
  | .double x => .ok (.double x.sqrt)
  | other => .error (Value.mismatch "double" other)

/-- The absolute value of an `int`, wrapped. -/
def absolute : Value → Except FaultCause Value
  | .integer n =>
    if n.width = .int then .ok (.integer (Word.wrap .int n.val.natAbs))
    else .error (Value.mismatch "int" (.integer n))
  | other => .error (Value.mismatch "int" other)

/-- The text that a container holds; the empty one if it holds none. -/
def bufferOf (heap : Heap) (address : Address) : String :=
  match heap.get? address with
  | some (.container _ fields) =>
    match fields.get? bufferName with
    | some (.string text) => text
    | _ => ""
  | _ => ""

/-- Replaces the text of a container by `change` of it, and gives what `result` says of both. -/
def onBuffer (receiver : Value) (change : String → String) (result : String → Value) :
    Exec Value :=
  match receiver with
  | .container address =>
    Exec.onHeap fun heap =>
      let text := change (bufferOf heap address)
      (result text, heap.setField address bufferName (.string text))
  | other => Exec.fail (Value.mismatch builderName other)

def onReceiver (receiver : Option Value) (method : Value → Exec Value) : Exec Value :=
  match receiver with
  | some receiver => method receiver
  | none => Exec.fail (.native .noReceiver)

/-- The number of characters of a text as an `int`. -/
def lengthOf (text : String) : Value :=
  .integer (Word.wrap .int text.length)

/-- The call of a native function; functions that are no methods take no notice of a receiver. -/
def invoke (native : Native) (receiver : Option Value) (arguments : List Value) : Exec Value :=
  match native with
  | print => do
    let text ← Exec.ofExcept (textArgument arguments)
    emit text
    emit "\n"
    return .void
  | write => do
    let text ← Exec.ofExcept (textArgument arguments)
    emit text
    return .void
  | exit => do
    let code ← Exec.ofExcept (argument arguments 0 >>= Value.asInteger)
    leave code
  | sqrt => Exec.ofExcept (argument arguments 0 >>= squareRoot)
  | abs => Exec.ofExcept (argument arguments 0 >>= absolute)
  | builder => Exec.onHeap (·.newContainer builderType [(bufferName, .string "")])
  | append => onReceiver receiver fun receiver => do
    let text ← Exec.ofExcept (textArgument arguments)
    onBuffer receiver (· ++ text) fun _ => .void
  | build => onReceiver receiver fun receiver => onBuffer receiver id .string
  | length => onReceiver receiver fun receiver => onBuffer receiver id lengthOf
  | clear => onReceiver receiver fun receiver => onBuffer receiver (fun _ => "") fun _ => .void

end Native

end Parcel
