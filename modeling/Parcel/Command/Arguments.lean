/-!
# Arguments of the command line

The first word that is no option names a command. Options may stand between the other words; after
`--` every word is taken as it is. A word that starts with a dash is never the value of an option.
The arguments are read from left to right, and the first thing that is wrong, or that asks for help
or the version, decides.
-/

namespace Parcel

/-- The files of a program, and what is to be used in place of its settings. -/
structure ProgramArguments where
  files : List String := []
  /-- The configuration file. -/
  config : Option String := none
  package : Option String := none
  function : Option String := none
  deriving DecidableEq, Repr

/-- A command. -/
inductive Command where
  /-- Shows the tokens of a file. -/
  | tokens (file : String)
  /-- Shows the syntax tree of a file. -/
  | parse (file : String)
  /-- Binds files and reports what is wrong. -/
  | check (arguments : ProgramArguments)
  /-- Shows the lowered code of files. -/
  | lower (arguments : ProgramArguments)
  /-- Runs a program. -/
  | run (arguments : ProgramArguments)
  deriving DecidableEq, Repr

/-- What a command line asks for. -/
inductive Request where
  | help
  | version
  | command (command : Command)
  deriving DecidableEq, Repr

namespace Request

/-- The options that take a value. -/
inductive Valued where
  | config
  | package
  | function
  deriving DecidableEq, Repr

def Valued.ofName? (name : String) : Option Valued :=
  if name = "config" then some .config
  else if name = "entry-package" then some .package
  else if name = "entry-function" then some .function
  else none

/-- Sets an option, which may be set once; a path is not empty. -/
def Valued.set? (arguments : ProgramArguments) (value : String) :
    Valued → Option ProgramArguments
  | .config =>
    if arguments.config.isSome || value.isEmpty then none
    else some { arguments with config := some value }
  | .package =>
    if arguments.package.isSome then none else some { arguments with package := some value }
  | .function =>
    if arguments.function.isSome then none else some { arguments with function := some value }

/-- A word of the command line. -/
inductive Word where
  /-- `--` -/
  | separator
  /-- `--name` or `--name=value` -/
  | long (name : String) (value : Option String)
  /-- A dash and letters. -/
  | short (letters : List Char)
  | plain (text : String)

def splitLong (text : List Char) : String × Option String :=
  let name := text.takeWhile (· ≠ '=')
  match text.dropWhile (· ≠ '=') with
  | _ :: value => (String.ofList name, some (String.ofList value))
  | [] => (String.ofList name, none)

def Word.ofText (text : String) : Word :=
  match text.toList with
  | ['-', '-'] => .separator
  | '-' :: '-' :: rest =>
    let (name, value) := splitLong rest
    .long name value
  | '-' :: c :: rest => .short (c :: rest)
  | _ => .plain text

/-- What letters after a dash ask for: nothing, if they are all `v`. -/
def ofLetters? (withVersion : Bool) : List Char → Option (Option Request)
  | [] => some none
  | 'v' :: rest => ofLetters? withVersion rest
  | 'h' :: _ => some (some .help)
  | 'V' :: _ => if withVersion then some (some .version) else none
  | _ => none

def ofLong? (withVersion : Bool) (name : String) : Option (Option Request) :=
  if name = "verbose" then some none
  else if name = "help" then some (some .help)
  else if withVersion ∧ name = "version" then some (some .version)
  else none

/-- The commands by name. -/
inductive CommandName where
  | tokens
  | parse
  | check
  | lower
  | run
  deriving DecidableEq, Repr

def CommandName.ofText? (text : String) : Option CommandName :=
  if text = "tokens" then some .tokens
  else if text = "parse" then some .parse
  else if text = "check" then some .check
  else if text = "lower" then some .lower
  else if text = "run" then some .run
  else none

def CommandName.takesOneFile : CommandName → Bool
  | .tokens | .parse => true
  | .check | .lower | .run => false

def addFile? (name : CommandName) (arguments : ProgramArguments) (file : String) :
    Option ProgramArguments :=
  if file.isEmpty then none
  else if name.takesOneFile ∧ ¬ arguments.files.isEmpty then none
  else some { arguments with files := arguments.files ++ [file] }

def finish? (name : CommandName) (arguments : ProgramArguments) : Option Request :=
  match arguments.files with
  | [] => none
  | file :: _ =>
    match name with
    | .tokens => some (.command (.tokens file))
    | .parse => some (.command (.parse file))
    | .check => some (.command (.check arguments))
    | .lower => some (.command (.lower arguments))
    | .run => some (.command (.run arguments))

def commandArguments? (name : CommandName) (arguments : ProgramArguments) :
    List String → Option Request
  | [] => finish? name arguments
  | text :: rest =>
    match Word.ofText text with
    | .separator => do
      let arguments ← rest.foldlM (addFile? name) arguments
      finish? name arguments
    | .plain file => do
      let arguments ← addFile? name arguments file
      commandArguments? name arguments rest
    | .short letters =>
      match ofLetters? false letters with
      | some none => commandArguments? name arguments rest
      | some (some request) => some request
      | none => none
    | .long option value =>
      match if name.takesOneFile then none else Valued.ofName? option, value, rest with
      | some valued, some value, rest => do
        let arguments ← valued.set? arguments value
        commandArguments? name arguments rest
      | some valued, none, value :: rest =>
        match Word.ofText value with
        | .plain value => do
          let arguments ← valued.set? arguments value
          commandArguments? name arguments rest
        | _ => none
      | some _, none, [] => none
      | none, some _, _ => none
      | none, none, rest =>
        match ofLong? false option with
        | some none => commandArguments? name arguments rest
        | some (some request) => some request
        | none => none

/-- What follows the word `help`: nothing, or a command. -/
def helpArguments? : List String → Option Request
  | [] => some .help
  | ["help"] => some .help
  | [text] => (CommandName.ofText? text).map fun _ => .help
  | _ => none

/-- What a command line asks for; none if it is not well formed. -/
def ofArguments? : List String → Option Request
  | [] => none
  | text :: rest =>
    match Word.ofText text with
    | .separator => none
    | .plain text =>
      if text = "help" then helpArguments? rest
      else do
        let name ← CommandName.ofText? text
        commandArguments? name {} rest
    | .short letters =>
      match ofLetters? true letters with
      | some none => ofArguments? rest
      | some (some request) => some request
      | none => none
    | .long _ (some _) => none
    | .long option none =>
      match ofLong? true option with
      | some none => ofArguments? rest
      | some (some request) => some request
      | none => none

end Request

end Parcel
