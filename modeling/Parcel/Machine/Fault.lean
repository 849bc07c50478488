import Parcel.Span
import Parcel.Symbol.Basic
import Parcel.Text.Quoted

/-!
# Faults of a run

What can go wrong while a program runs. After a recoverable fault the run may go on with a value in
place of the one that is missing. An internal fault never arises in a program that was bound without
errors. An exit is passed on in the same way as a fault.
-/

namespace Parcel

/-- What goes wrong inside a native function. -/
inductive NativeFault where
  /-- The sink refuses a text. -/
  | write (reason : String)
  /-- The sink cannot be flushed. -/
  | flush (reason : String)
  | noReceiver
  | missingArgument (index : Nat)
  deriving DecidableEq, Repr

def NativeFault.message : NativeFault → String
  | write reason => "cannot write output: " ++ reason
  | flush reason => "cannot flush output: " ++ reason
  | noReceiver => "native method called without a receiver"
  | missingArgument index => s!"missing argument {index}"

/-- The causes of faults. -/
inductive FaultCause where
  | indexOutOfBounds (index : Int) (length : Nat)
  | conversionFailed (text target : String)
  | divisionByZero
  | negativeLength (length : Int)
  | stackOverflow (limit : Nat)
  | native (fault : NativeFault)
  | unresolvedVariable (name : String)
  | unresolvedLabel (label : Label)
  | unresolvedFunction (name : String)
  /-- A statement that is not lowered, or a body. -/
  | unlowered (function : String)
  /-- An expression that could not be resolved. -/
  | unresolvedNode
  | operandMismatch (expected found : String)
  /-- The program asks to end with this code. -/
  | exit (code : Int)
  deriving DecidableEq, Repr

namespace FaultCause

/-- Whether the run may go on with a value in place of the one that is missing. -/
def isRecoverable : FaultCause → Bool
  | indexOutOfBounds _ _ | conversionFailed _ _ | divisionByZero | negativeLength _ => true
  | stackOverflow _ | native _ | unresolvedVariable _ | unresolvedLabel _ | unresolvedFunction _
  | unlowered _ | unresolvedNode | operandMismatch _ _ | exit _ => false

/-- Whether the fault never arises in a program that was bound without errors. -/
def isInternal : FaultCause → Bool
  | unresolvedVariable _ | unresolvedLabel _ | unresolvedFunction _ | unlowered _ | unresolvedNode
  | operandMismatch _ _ => true
  | indexOutOfBounds _ _ | conversionFailed _ _ | divisionByZero | negativeLength _
  | stackOverflow _ | native _ | exit _ => false

def kindName : FaultCause → String
  | indexOutOfBounds _ _ => "IndexOutOfBounds"
  | conversionFailed _ _ => "ConversionFailed"
  | divisionByZero => "DivisionByZero"
  | negativeLength _ => "NegativeLength"
  | stackOverflow _ => "StackOverflow"
  | native _ => "Native"
  | unresolvedVariable _ => "UnresolvedVariable"
  | unresolvedLabel _ => "UnresolvedLabel"
  | unresolvedFunction _ => "UnresolvedFunction"
  | unlowered _ => "Unlowered"
  | unresolvedNode => "ErrorNode"
  | operandMismatch _ _ => "OperandMismatch"
  | exit code => s!"Exit({code})"

def message : FaultCause → String
  | indexOutOfBounds index length => s!"index {index} out of bounds for length {length}"
  | conversionFailed text target => s!"cannot convert {Text.quoted text} to {target}"
  | divisionByZero => "division by zero"
  | negativeLength length => s!"array length {length} is negative"
  | stackOverflow limit => s!"stack overflow: call depth exceeded {limit}"
  | native fault => fault.message
  | unresolvedVariable name => s!"variable `{name}` has no value"
  | unresolvedLabel label => s!"label {label.shown} is not defined in this function"
  | unresolvedFunction name => s!"function `{name}` has no body"
  | unlowered function => s!"function `{function}` contains structured control flow"
  | unresolvedNode => "error node reached evaluation"
  | operandMismatch expected found => s!"expected a {expected} operand, found {found}"
  | exit code => s!"exit with code {code}"

end FaultCause

/-- A place in the source of a program. -/
structure Place where
  span : Span
  /-- The index of the source file, if the code comes from one. -/
  file : Option Nat
  deriving DecidableEq, Repr

/-- A cause and the place where it arose, if it is known. -/
structure Fault where
  cause : FaultCause
  place : Option Place
  deriving DecidableEq, Repr

namespace Fault

/-- The fault at a place, unless it has one already. -/
def placed (f : Fault) (place : Place) : Fault :=
  { f with place := f.place.or (some place) }

def span (f : Fault) : Option Span :=
  f.place.map (·.span)

/-- The index of the source file in which the fault arose. -/
def file (f : Fault) : Option Nat :=
  f.place.bind (·.file)

def message (f : Fault) : String :=
  f.cause.message

def shown (f : Fault) : String :=
  if f.cause.isInternal then "Internal runtime error: " ++ f.message
  else "Runtime error: " ++ f.message

end Fault

end Parcel
