import Parcel.Binding.Error
import Parcel.Machine.Fault
import Parcel.Syntax.Parser
import Parcel.Token.Lexer

/-!
# Failures

What can go wrong on the way from a source text to the outcome of a run, and how it is presented.
-/

namespace Parcel

/-- The stages that do not start while there are diagnostics. -/
inductive Stage where
  | binding
  | lowering
  | evaluation
  deriving DecidableEq, Repr

def Stage.name : Stage → String
  | .binding => "binding"
  | .lowering => "lowering"
  | .evaluation => "evaluation"

/-- A failure of any stage. -/
inductive Failure where
  | lexing (e : LexError)
  | parsing (e : Syntax.SyntaxError)
  | binding (e : BindError)
  | runtime (f : Fault)
  /-- What was written cannot be passed on. -/
  | flush (reason : String)
  /-- The function that the program starts with does not exist. -/
  | noEntry (package function : String)
  /-- A stage does not start because there are diagnostics. -/
  | halted (stage : Stage) (count : Nat)
  /-- The run takes more steps than are allowed. -/
  | unfinished
  deriving DecidableEq

namespace Failure

def span : Failure → Option Span
  | lexing e => some e.span
  | parsing e => some e.span
  | binding e => some e.span
  | runtime f => f.span
  | flush _ | noEntry _ _ | halted _ _ | unfinished => none

/-- The index of the source file, if the failure itself knows it. -/
def file : Failure → Option Nat
  | runtime f => f.file
  | _ => none

def message : Failure → String
  | lexing e => e.message
  | parsing e => e.message
  | binding e => e.message
  | runtime f => f.message
  | flush reason => "cannot flush output: " ++ reason
  | noEntry package function => s!"entry function `{package}::{function}` not found"
  | halted stage count => s!"{stage.name} halted with {count} diagnostic(s)"
  | unfinished => "evaluation did not finish"

/-- The wording of a failure with the stage in which it arose. -/
def shown (failure : Failure) : String :=
  match failure with
  | lexing e => s!"Lexer error at {e.span.shown}: {e.message}"
  | parsing e => s!"Parser error at {e.span.shown}: {e.message}"
  | binding e => s!"Bind error at {e.span.shown}: {e.message}"
  | runtime f => f.shown
  | flush _ => "IO error: " ++ failure.message
  | noEntry _ _ => "Config error: " ++ failure.message
  | halted _ _ | unfinished => failure.message

/-- Whether the failure never arises in a program that was bound without errors. -/
def isInternal : Failure → Bool
  | runtime f => f.cause.isInternal
  | _ => false

/-- The stage in which the failure arose, as reports name it. -/
def label : Failure → String
  | lexing _ => "Lexer"
  | parsing _ => "Parser"
  | binding _ => "Bind"
  | runtime _ => "Runtime"
  | flush _ => "IO"
  | noEntry _ _ => "Config"
  | halted _ _ | unfinished => "Pipeline"

def title (failure : Failure) : String :=
  (if failure.isInternal then "Internal error" else "Error") ++ s!": {failure.label} error"

end Failure

/-- A failure and the file to which it belongs, if that is known. -/
structure Diagnostic where
  file : Option Nat
  failure : Failure
  deriving DecidableEq

end Parcel
