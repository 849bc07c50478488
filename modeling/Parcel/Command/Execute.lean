import Parcel.Command.Arguments
import Parcel.Session
import Parcel.Syntax.Json

/-!
# Execution of commands

A command reads files and gives a text, reports and an exit code. How files are read is left open,
so that a command can be executed on files of any kind.
-/

namespace Parcel

/-- What a command gives. -/
structure CommandResult where
  exitCode : Nat
  output : String := ""
  /-- What is reported about the sources. -/
  reports : List Diagnostic := []
  /-- What is said if the command cannot be executed at all. -/
  complaint : Option String := none

/-- A way to read files; none if a file cannot be read. -/
abbrev FileReader (m : Type → Type) := String → m (Option String)

/-- The name of the configuration file that is looked for beside the first file. -/
def configName : String := "glint.toml"

/-- The directory of a path, with the slash at its end; nothing for a bare name. -/
def directoryOf (path : String) : String :=
  String.ofList (path.toList.reverse.dropWhile (· ≠ '/')).reverse

namespace CommandResult

def refused (complaint : String) : CommandResult :=
  { exitCode := 1, complaint := some complaint }

def reported (reports : List Diagnostic) (output : String) : CommandResult :=
  { exitCode := 1, output, reports }

end CommandResult

namespace Command

variable {m : Type → Type} [Monad m]

def readSource (read : FileReader m) (path : String) : ExceptT CommandResult m String := do
  match ← read path with
  | some text => return text
  | none => throw (.refused s!"IO error: cannot read {path}")

def readSettings (read : FileReader m) (path : String) : ExceptT CommandResult m Settings := do
  let text ← readSource read path
  match Settings.read? text with
  | some settings => return settings
  | none => throw (.refused s!"Config error: {path}: malformed configuration")

/-- The settings for a program: those of the configuration file that is named, or of the one beside
the first file, if there is one. -/
def baseSettings (read : FileReader m) (arguments : ProgramArguments) :
    ExceptT CommandResult m Settings := do
  match arguments.config with
  | some path => readSettings read path
  | none =>
    let path := directoryOf (arguments.files.headD "") ++ configName
    match ← read path with
    | some _ => readSettings read path
    | none => return {}

def settingsFor (read : FileReader m) (arguments : ProgramArguments) :
    ExceptT CommandResult m Settings := do
  let settings ← baseSettings read arguments
  return { settings with
    package := arguments.package.getD settings.package
    function := arguments.function.getD settings.function }

/-- The syntax trees of source texts; the first failure is reported. -/
def parseAll (texts : List String) : Except CommandResult (List Syntax.Program) :=
  texts.zipIdx.mapM fun (text, index) =>
    match parseSource text with
    | .ok program => .ok program
    | .error failure => .error (.reported [⟨some index, failure⟩] "")

def boundSession (read : FileReader m) (arguments : ProgramArguments) :
    ExceptT CommandResult m Session := do
  let settings ← settingsFor read arguments
  let texts ← arguments.files.mapM (readSource read)
  let programs ← ExceptT.mk (pure (parseAll texts))
  match (Session.new settings).bind programs with
  | (none, session) => return session
  | (some _, session) => throw (.reported session.diagnostics.toList "")

def tokenLine (lexeme : Lexeme) : String :=
  s!"{lexeme.token.dumped} @ {lexeme.span.shown}\n"

def showTokens (text : String) : CommandResult :=
  match Token.scan text with
  | .ok lexemes => { exitCode := 0, output := String.join (lexemes.map tokenLine) }
  | .error e => .reported [⟨none, .lexing e⟩] ""

def showTree (text : String) : CommandResult :=
  match parseSource text with
  | .ok program => { exitCode := 0, output := program.toJson.pretty ++ "\n" }
  | .error failure => .reported [⟨some 0, failure⟩] ""

/-- What is said about files that are bound without errors. -/
def boundLine (functions files : Nat) : String :=
  s!"✓ {functions} function(s) in {files} file(s) bind successfully\n"

def showLowered (session : Session) : CommandResult :=
  match session.lower with
  | (none, session) => { exitCode := 0, output := session.listing }
  | (some failure, _) => .refused failure.shown

/-- The run of the program of a session. An exit code is reduced to one byte. -/
def runSession (session : Session) : CommandResult :=
  match session.lower with
  | (some failure, _) => .refused failure.shown
  | (none, session) =>
    let (evaluation, session) :=
      session.evaluate session.settings.package session.settings.function {}
    let reports := session.diagnostics.toList
    let output := evaluation.sink.text?.getD ""
    match evaluation.result with
    | .ok execution => { exitCode := (execution.exitCode % 256).toNat, output, reports }
    | .error failure => .reported (reports ++ [⟨failure.file, failure⟩]) output

/-- Executes a command, which may fail early. -/
def attempt (read : FileReader m) : Command → ExceptT CommandResult m CommandResult
  | tokens file => return showTokens (← readSource read file)
  | parse file => return showTree (← readSource read file)
  | check arguments => do
    let session ← boundSession read arguments
    let line := boundLine session.program.functions.length arguments.files.length
    return { exitCode := 0, output := line }
  | lower arguments => return showLowered (← boundSession read arguments)
  | run arguments => return runSession (← boundSession read arguments)

def execute (read : FileReader m) (command : Command) : m CommandResult := do
  match ← (command.attempt read).run with
  | .ok result => return result
  | .error result => return result

end Command

namespace Request

def versionLine : String := "glint 0.1.0\n"

/-- How the program is called. -/
def usage : String :=
  "Usage: glint [OPTIONS] <COMMAND>\n\n" ++
  "Commands: tokens, parse, check, lower, run, help\n\n" ++
  "Options: -v, --verbose, -h, --help, -V, --version\n"

def answer {m : Type → Type} [Monad m] (read : FileReader m) (arguments : List String) :
    m CommandResult :=
  match ofArguments? arguments with
  | none => return { exitCode := 2, complaint := some usage }
  | some .help => return { exitCode := 0, output := usage }
  | some .version => return { exitCode := 0, output := versionLine }
  | some (.command asked) => asked.execute read

end Request

end Parcel
