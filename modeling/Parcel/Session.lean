import Parcel.Binding.Program
import Parcel.Code.Listing
import Parcel.Code.Lowering
import Parcel.Code.Renumber
import Parcel.Failure
import Parcel.Machine.Run
import Parcel.Settings

/-!
# Sessions

A session binds, lowers and evaluates programs on one catalog. None of these stages starts while
there are diagnostics.
-/

namespace Parcel

def parseSource (text : String) : Except Failure Syntax.Program :=
  match Token.scan text with
  | .error e => .error (.lexing e)
  | .ok lexemes =>
    match Syntax.parse (.ofText text) lexemes with
    | .error e => .error (.parsing e)
    | .ok program => .ok program

/-- The value that a run ends with, and its exit code. -/
structure Execution where
  value : Snapshot
  exitCode : Int

/-- The result of an evaluation, and the sink after it. -/
structure Evaluation where
  result : Except Failure Execution
  sink : Sink

/-- A session. -/
structure Session where
  settings : Settings
  catalog : Catalog
  ids : Ids
  diagnostics : Array Diagnostic
  program : Code.Program

namespace Session

/-- A session in which only the package `sys` is known. -/
def new (settings : Settings) : Session :=
  let (catalog, ids) := Catalog.empty.withSys {}
  ⟨settings, catalog, ids, #[], .empty⟩

/-- Why a stage does not start. -/
def halted? (s : Session) (stage : Stage) : Option Failure :=
  if s.diagnostics.isEmpty then none else some (.halted stage s.diagnostics.size)

def ofFileError (e : FileError) : Diagnostic :=
  ⟨e.file, .binding e.error⟩

def bind (s : Session) (files : List Syntax.Program) : Option Failure × Session :=
  match s.halted? .binding with
  | some failure => (some failure, s)
  | none =>
    let build := bindFiles s.catalog s.ids files
    let s : Session :=
      { s with
        catalog := build.catalog
        ids := build.ids
        diagnostics := s.diagnostics ++ build.errors.map ofFileError
        program := build.program }
    (s.halted? .binding, s)

/-- Lowers the program. -/
def lower (s : Session) : Option Failure × Session :=
  match s.halted? .lowering with
  | some failure => (some failure, s)
  | none =>
    let (program, ids) := s.program.lower.run s.ids
    (none, { s with program, ids })

def ofFault (f : Fault) : Diagnostic :=
  ⟨f.file, .runtime f⟩

/-- The result of a run that ended in a state. -/
def resultOf (outcome : Outcome) (state : State) : Except Failure Execution :=
  match outcome with
  | .finished value exitCode => .ok ⟨state.heap.snapshot value, exitCode⟩
  | .failed fault => .error (.runtime fault)
  | .unfinished => .error .unfinished

/-- The result of a run, once its output is passed on; that this cannot be done comes before
everything else. -/
def evaluationOf (outcome : Outcome) (state : State) : Evaluation :=
  match state.sink.ask .flush with
  | (some reason, sink) => ⟨.error (.flush reason), sink⟩
  | (none, sink) => ⟨resultOf outcome state, sink⟩

/-- Evaluates a function of a package. The faults from which the run recovered become diagnostics,
also if it fails. -/
def evaluate (s : Session) (package function : String) (sink : Sink) : Evaluation × Session :=
  match s.halted? .evaluation with
  | some failure => (⟨.error failure, sink⟩, s)
  | none =>
    match (s.catalog.package? package).bind (·.function? function) with
    | none => (⟨.error (.noEntry package function), sink⟩, s)
    | some entry =>
      let (outcome, state) := run ⟨s.program, s.catalog, s.settings.mode⟩ entry sink
      (evaluationOf outcome state,
        { s with diagnostics := s.diagnostics ++ state.recovered.map ofFault })

/-- Binds and lowers files, and evaluates the function that the settings name. -/
def runFiles (s : Session) (files : List Syntax.Program) (sink : Sink) : Evaluation × Session :=
  match s.bind files with
  | (some failure, s) => (⟨.error failure, sink⟩, s)
  | (none, s) =>
    match s.lower with
    | (some failure, s) => (⟨.error failure, sink⟩, s)
    | (none, s) => s.evaluate s.settings.package s.settings.function sink

def runSource (s : Session) (text : String) (sink : Sink) : Evaluation × Session :=
  match parseSource text with
  | .error failure => (⟨.error failure, sink⟩, s)
  | .ok program => s.runFiles [program] sink

/-- The program as a text. -/
def listing (s : Session) : String :=
  s.program.listing

/-- The program as a text in which the labels of lowered code are renumbered. -/
def renumberedListing (s : Session) : String :=
  s.program.renumbered.listing

end Session

end Parcel
