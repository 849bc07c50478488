import Std.Data.TreeMap
import Parcel.Machine.Heap

/-!
# The state of a run

A run has the variables of packages, a heap, a stack of frames, one for each call that is not yet
finished, the faults from which it recovered, and a sink for what it writes.
-/

namespace Parcel

/-! ### Variables -/

/-- Variables and their values, each variable at most once. -/
abbrev Store := List (VarId × Value)

namespace Store

def get? : Store → VarId → Option Value
  | [], _ => none
  | entry :: rest, id => if entry.1 = id then some entry.2 else get? rest id

def set : Store → VarId → Value → Store
  | [], id, value => [(id, value)]
  | entry :: rest, id, value =>
    if entry.1 = id then (id, value) :: rest else entry :: set rest id value

/-- Takes a variable away. -/
def erase : Store → VarId → Store
  | [], _ => []
  | entry :: rest, id => if entry.1 = id then rest else entry :: erase rest id

end Store

/-! ### Frames -/

abbrev LabelPositions := Std.TreeMap Nat Nat

def LabelPositions.note (positions : LabelPositions) : Code.Stmt × Nat → LabelPositions
  | (.label label, position) => positions.insert label.index position
  | _ => positions

/-- The positions of the labels of a body; of several places of a label the last one counts. -/
def labelPositions (code : Array Code.Stmt) : LabelPositions :=
  code.toList.zipIdx.foldl LabelPositions.note ∅

/-- A call that is not yet finished. -/
structure Frame where
  /-- The name of the function, for messages. -/
  function : String
  /-- The index of the source file of the function. -/
  file : Option Nat
  /-- The position of the next statement. -/
  position : Nat
  labels : LabelPositions
  locals : Store
  /-- What the call gives when it ends. -/
  result : Value
  returned : Bool

def Frame.enter (function : String) (file : Option Nat) (code : Array Code.Stmt)
    (locals : Store) (result : Value) : Frame :=
  ⟨function, file, 0, labelPositions code, locals, result, false⟩

def Frame.position? (frame : Frame) (label : Label) : Option Nat :=
  frame.labels[label.index]?

/-- The frames of the calls that are not yet finished, the innermost first, and their number. -/
structure Stack where
  frames : List Frame
  depth : Nat
  depth_eq : depth = frames.length

namespace Stack

def empty : Stack := ⟨[], 0, rfl⟩

def top? (stack : Stack) : Option Frame :=
  stack.frames.head?

def push (stack : Stack) (frame : Frame) : Stack :=
  ⟨frame :: stack.frames, stack.depth + 1, by rw [List.length_cons, ← stack.depth_eq]⟩

/-- The stack without its innermost frame. -/
def pop (stack : Stack) : Stack :=
  ⟨stack.frames.tail, stack.depth - 1, by rw [List.length_tail, ← stack.depth_eq]⟩

def modifyTop (stack : Stack) (f : Frame → Frame) : Stack :=
  ⟨stack.frames.modifyHead f, stack.depth, by rw [List.length_modifyHead, stack.depth_eq]⟩

end Stack

/-! ### Output -/

/-- What a run asks of the device that it writes to. -/
inductive Transfer where
  | write (text : String)
  | flush

/-- What was asked of a device, the last first, and the bytes that it took. -/
structure Transcript where
  asked : List Transfer := []
  written : ByteArray := .empty

/-- A device to write to. Its answers may depend on all that was asked of it before. -/
structure Device where
  /-- Why it refuses what is asked; none if it does not. -/
  refusal? : Transcript → Transfer → Option String
  /-- How many bytes it takes of a text that it refuses. -/
  taken : Transcript → String → Nat

namespace Device

/-- The device that takes everything. -/
def boundless : Device where
  refusal? _ _ := none
  taken _ _ := 0

/-- The bytes that are taken of what is asked: all those of a text, unless it is refused. -/
def bytes (device : Device) (before : Transcript) (refusal? : Option String) :
    Transfer → ByteArray
  | .write text =>
    match refusal? with
    | none => text.toUTF8
    | some _ => text.toUTF8.extract 0 (device.taken before text)
  | .flush => .empty

end Device

/-- A device with what was asked of it so far. -/
structure Sink where
  device : Device := .boundless
  transcript : Transcript := {}

/-- Asks something of the device; the answer is why it refuses it, or none. -/
def Sink.ask (transfer : Transfer) : Sink → Option String × Sink
  | ⟨device, ⟨asked, written⟩⟩ =>
    let refusal? := device.refusal? ⟨asked, written⟩ transfer
    let bytes := device.bytes ⟨asked, written⟩ refusal? transfer
    (refusal?, ⟨device, ⟨transfer :: asked, written ++ bytes⟩⟩)

/-- The bytes that were written. -/
def Sink.written (sink : Sink) : ByteArray :=
  sink.transcript.written

/-- What was written, as a text; none if it ends inside of a character. -/
def Sink.text? (sink : Sink) : Option String :=
  String.fromUTF8? sink.written

/-! ### States -/

/-- The state of a run. -/
structure State where
  /-- The variables of packages. -/
  globals : Store
  heap : Heap
  stack : Stack
  /-- The faults from which the run recovered, the first one first. -/
  recovered : Array Fault
  sink : Sink

namespace State

def onHeap {α : Type} (f : Heap → α × Heap) : State → α × State
  | ⟨globals, heap, stack, recovered, sink⟩ =>
    let (value, heap) := f heap
    (value, ⟨globals, heap, stack, recovered, sink⟩)

def onStack (f : Stack → Stack) : State → State
  | ⟨globals, heap, stack, recovered, sink⟩ => ⟨globals, heap, f stack, recovered, sink⟩

/-- Changes the variables of packages. -/
def onGlobals (f : Store → Store) : State → State
  | ⟨globals, heap, stack, recovered, sink⟩ => ⟨f globals, heap, stack, recovered, sink⟩

def addRecovered (fault : Fault) : State → State
  | ⟨globals, heap, stack, recovered, sink⟩ => ⟨globals, heap, stack, recovered.push fault, sink⟩

/-- Asks something of the device. -/
def ask (transfer : Transfer) : State → Option String × State
  | ⟨globals, heap, stack, recovered, sink⟩ =>
    let (refusal?, sink) := sink.ask transfer
    (refusal?, ⟨globals, heap, stack, recovered, sink⟩)

/-- The source file of the innermost frame. -/
def file (s : State) : Option Nat :=
  s.stack.top?.bind (·.file)

end State

def State.initial (sink : Sink) : State :=
  ⟨[], .empty, .empty, #[], sink⟩

/-- Why a run does not go on. -/
inductive Halt where
  | fault (fault : Fault)
  /-- The number of steps that was allowed is used up. -/
  | outOfFuel

/-- Computations on the state of a run. What was done before a fault stays done. -/
abbrev Exec := EStateM Halt State

namespace Exec

/-- How such a computation ends. -/
abbrev Result := EStateM.Result Halt State

/-- A fault that is not yet placed. -/
def fail {α : Type} (cause : FaultCause) : Exec α :=
  throw (.fault ⟨cause, none⟩)

/-- The result of a computation, whose fault is not yet placed. -/
def ofExcept {α : Type} : Except FaultCause α → Exec α
  | .ok value => return value
  | .error cause => fail cause

def onHeap {α : Type} (f : Heap → α × Heap) : Exec α :=
  modifyGet (State.onHeap f)

/-- Asks something of the device; the answer is why it refuses it, or none. -/
def ask (transfer : Transfer) : Exec (Option String) :=
  modifyGet (State.ask transfer)

def modifyFrame (f : Frame → Frame) : Exec Unit :=
  modify (State.onStack (·.modifyTop f))

end Exec

end Parcel
