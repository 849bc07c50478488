import Parcel.Toml.Item
import Parcel.Toml.Scalar

/-!
# Reading of configuration files

A configuration file in the TOML format is read as a table, or refused. Arrays and tables in braces
are nested less than eighty deep, and a dotted key has less than eighty parts.
-/

namespace Parcel.Toml

/-- Computations that read characters, or refuse them. -/
abbrev Reader := StateT (List Char) Option

namespace Reader

/-- The characters that are left. -/
def rest : Reader (List Char) := get

def refuse {α : Type} : Reader α := fun _ => none

/-- Passes over a character, which has to be there. -/
def expect (c : Char) : Reader Unit := do
  match ← get with
  | d :: rest => if c = d then set rest else refuse
  | [] => refuse

/-- Passes over a character if it is there. -/
def accept (c : Char) : Reader Bool := do
  match ← get with
  | d :: rest =>
    if c = d then
      set rest
      return true
    else return false
  | [] => return false

/-- Takes the characters that satisfy a condition. -/
def takeWhile (p : Char → Bool) : Reader (List Char) :=
  modifyGet fun chars => (chars.takeWhile p, chars.dropWhile p)

def ofFunction {α : Type} (f : List Char → Option (α × List Char)) : Reader α := f

end Reader

open Reader

/-! ### Blanks -/

/-- Whether a character is a blank within a line. -/
def isInlineBlank (c : Char) : Bool :=
  c = ' ' || c = '\t'

/-- Whether a character may stand in a comment. -/
def isCommentChar (c : Char) : Bool :=
  c = '\t' || (' ' ≤ c && c ≠ '\x7f')

/-- Passes over blanks within a line. -/
def blanks : Reader Unit := do
  let _ ← takeWhile isInlineBlank

def comment : Reader Unit := do
  if ← accept '#' then
    let _ ← takeWhile isCommentChar

/-- Passes over the end of a line if it is there. -/
def newline : Reader Bool := do
  match ← get with
  | '\n' :: rest =>
    set rest
    return true
  | '\r' :: '\n' :: rest =>
    set rest
    return true
  | _ => return false

def blankLines : Nat → Reader Unit
  | 0 => refuse
  | fuel + 1 => do
    blanks
    comment
    if ← newline then blankLines fuel

/-! ### Texts -/

/-- Adds a character in front of a text that was read. -/
def cons (c : Char) (read : Option (List Char × List Char)) : Option (List Char × List Char) :=
  read.map fun (text, rest) => (c :: text, rest)

def charOfNumber? (n : Nat) : Option Char :=
  if n.isValidChar then some (Char.ofNat n) else none

def charOfDigits? (digits : List Char) : Option Char := do
  if digits.all fun c => (digit? 16 c).isSome then
    let n ← number? 16 digits
    charOfNumber? n
  else none

/-- The character that a backslash and a letter stand for. -/
def escaped? (c : Char) : Option Char :=
  match c with
  | 'b' => some '\x08'
  | 't' => some '\t'
  | 'n' => some '\n'
  | 'f' => some '\x0c'
  | 'r' => some '\r'
  | '"' => some '"'
  | '\\' => some '\\'
  | _ => none

/-- Whether a character may stand in a text as it is. -/
def isTextChar (c : Char) : Bool :=
  isCommentChar c

def basicText : List Char → Option (List Char × List Char)
  | '"' :: rest => some ([], rest)
  | '\\' :: 'u' :: a :: b :: c :: d :: rest => do
    let decoded ← charOfDigits? [a, b, c, d]
    cons decoded (basicText rest)
  | '\\' :: 'U' :: a :: b :: c :: d :: e :: f :: g :: h :: rest => do
    let decoded ← charOfDigits? [a, b, c, d, e, f, g, h]
    cons decoded (basicText rest)
  | '\\' :: c :: rest => do
    let decoded ← escaped? c
    cons decoded (basicText rest)
  | c :: rest => if isTextChar c then cons c (basicText rest) else none
  | [] => none

/-- A text without escapes, after its opening quote. -/
def literalText : List Char → Option (List Char × List Char)
  | '\'' :: rest => some ([], rest)
  | c :: rest => if isTextChar c then cons c (literalText rest) else none
  | [] => none

/-- Whether only blanks stand before the end of the line. -/
def endsLine (chars : List Char) : Bool :=
  match chars.dropWhile isInlineBlank with
  | '\n' :: _ | '\r' :: '\n' :: _ => true
  | _ => false

/-- A text of several lines with escapes. After a backslash at the end of a line, blanks and ends of
lines are skipped. Up to two quotes may stand before the closing ones. -/
def basicLines (skipping : Bool) : List Char → Option (List Char × List Char)
  | '"' :: '"' :: '"' :: '"' :: '"' :: rest => some (['"', '"'], rest)
  | '"' :: '"' :: '"' :: '"' :: rest => some (['"'], rest)
  | '"' :: '"' :: '"' :: rest => some ([], rest)
  | '\r' :: '\n' :: rest =>
    if skipping then basicLines true rest else cons '\n' (basicLines false rest)
  | '\n' :: rest => if skipping then basicLines true rest else cons '\n' (basicLines false rest)
  | '\\' :: 'u' :: a :: b :: c :: d :: rest => do
    let decoded ← charOfDigits? [a, b, c, d]
    cons decoded (basicLines false rest)
  | '\\' :: 'U' :: a :: b :: c :: d :: e :: f :: g :: h :: rest => do
    let decoded ← charOfDigits? [a, b, c, d, e, f, g, h]
    cons decoded (basicLines false rest)
  | '\\' :: c :: rest =>
    if endsLine (c :: rest) then basicLines true (c :: rest)
    else do
      let decoded ← escaped? c
      cons decoded (basicLines false rest)
  | c :: rest =>
    if skipping && isInlineBlank c then basicLines true rest
    else if isTextChar c then cons c (basicLines false rest)
    else none
  | [] => none

def literalLines : List Char → Option (List Char × List Char)
  | '\'' :: '\'' :: '\'' :: '\'' :: '\'' :: rest => some (['\'', '\''], rest)
  | '\'' :: '\'' :: '\'' :: '\'' :: rest => some (['\''], rest)
  | '\'' :: '\'' :: '\'' :: rest => some ([], rest)
  | '\r' :: '\n' :: rest => cons '\n' (literalLines rest)
  | '\n' :: rest => cons '\n' (literalLines rest)
  | c :: rest => if isTextChar c then cons c (literalLines rest) else none
  | [] => none

/-- The characters without the end of a line in front. -/
def afterNewline : List Char → List Char
  | '\n' :: rest | '\r' :: '\n' :: rest => rest
  | chars => chars

def text? : List Char → Option (List Char × List Char)
  | '"' :: '"' :: '"' :: rest => basicLines false (afterNewline rest)
  | '\'' :: '\'' :: '\'' :: rest => literalLines (afterNewline rest)
  | '"' :: rest => basicText rest
  | '\'' :: rest => literalText rest
  | _ => none

/-! ### Keys -/

/-- Whether a character may stand in a key without quotes. -/
def isKeyChar (c : Char) : Bool :=
  c.isAlphanum || c = '_' || c = '-'

def simpleKey : Reader String := do
  match ← get with
  | '"' :: chars =>
    set chars
    String.ofList <$> ofFunction basicText
  | '\'' :: chars =>
    set chars
    String.ofList <$> ofFunction literalText
  | _ =>
    let key ← takeWhile isKeyChar
    if key.isEmpty then refuse else return String.ofList key

/-- A key, which may have dots, of so many parts at most. -/
def key : Nat → Reader (List String)
  | 0 => refuse
  | fuel + 1 => do
    blanks
    let first ← simpleKey
    blanks
    if ← accept '.' then
      let path ← key fuel
      return first :: path
    else return [first]

/-- One more than the number of parts that a dotted key has at most, and than the depth to which
arrays and tables in braces are nested. -/
def nestingLimit : Nat := 80

/-- A key that has not too many parts. -/
def boundedKey : Reader (List String) :=
  key (nestingLimit - 1)

/-! ### Values -/

/-- Whether a character may stand in a number, a date, a time or a truth value. -/
def isWordChar (c : Char) : Bool :=
  c.isAlphanum || c = '_' || c = '+' || c = '-' || c = '.' || c = ':'

def timeFollows : List Char → Bool
  | ' ' :: a :: b :: ':' :: _ => a.isDigit && b.isDigit
  | _ => false

/-- A number, a date, a time or a truth value. A date and a time may have a blank between them. -/
def word : Reader (List Char) := do
  let first ← takeWhile isWordChar
  if (afterDate? first) = some [] && timeFollows (← rest) then
    expect ' '
    let second ← takeWhile isWordChar
    return first ++ ' ' :: second
  else return first

def wordItem? (word : List Char) : Option Item :=
  if word = "true".toList then some (.bool true)
  else if word = "false".toList then some (.bool false)
  else
    match integer? word with
    | some n => some (.integer n)
    | none => if isFloat word || isDateTime word then some .other else none

mutual

def item (depth : Nat) : Nat → Reader Item
  | 0 => refuse
  | fuel + 1 => do
    match ← get with
    | '[' :: chars =>
      set chars
      if depth + 1 < nestingLimit then .array <$> arrayItems (depth + 1) fuel else refuse
    | '\x7b' :: chars =>
      set chars
      if depth + 1 < nestingLimit then
        blanks
        if ← accept '\x7d' then return .table .braces []
        else .table .braces <$> pairs (depth + 1) [] fuel
      else refuse
    | '"' :: _ | '\'' :: _ =>
      let text ← ofFunction text?
      return .string (String.ofList text)
    | _ =>
      let word ← word
      ofFunction fun chars => (wordItem? word).map (·, chars)

/-- The items of an array up to its end; a comma may follow the last one. -/
def arrayItems (depth : Nat) : Nat → Reader (List Item)
  | 0 => refuse
  | fuel + 1 => do
    blankLines ((← rest).length + 1)
    if ← accept ']' then return []
    else
      let first ← item depth fuel
      blankLines ((← rest).length + 1)
      if ← accept ',' then
        let items ← arrayItems depth fuel
        return first :: items
      else
        expect ']'
        return [first]

/-- The entries of a table in braces up to its end, added to those there are. -/
def pairs (depth : Nat) (table : Table) : Nat → Reader Table
  | 0 => refuse
  | fuel + 1 => do
    let path ← boundedKey
    expect '='
    blanks
    let value ← item depth fuel
    let some table := insertKey? .header table path value | refuse
    blanks
    if ← accept ',' then pairs depth table fuel
    else
      expect '\x7d'
      return table

end

/-! ### Files -/

/-- What has been read of a file: its items, and the header that was opened last. -/
structure Progress where
  root : Table
  header : List String

def header (progress : Progress) : Reader Progress := do
  expect '['
  if ← accept '[' then
    let path ← boundedKey
    expect ']'
    expect ']'
    let some root := openElement? progress.root path | refuse
    return ⟨root, path⟩
  else
    let path ← boundedKey
    expect ']'
    let some root := openTable? progress.root path | refuse
    return ⟨root, path⟩

/-- An entry below the header that was opened last. -/
def entry (progress : Progress) : Reader Progress := do
  let path ← boundedKey
  expect '='
  blanks
  let value ← item 0 (2 * (← rest).length + 2)
  let some root := addEntry? progress.root progress.header path value | refuse
  return ⟨root, progress.header⟩

def line (progress : Progress) : Reader Progress := do
  blanks
  let progress ←
    match ← rest with
    | [] | '#' :: _ | '\n' :: _ | '\r' :: _ => pure progress
    | '[' :: _ => header progress
    | _ => entry progress
  blanks
  comment
  return progress

/-- The lines of a file, so many at most. -/
def lines (progress : Progress) : Nat → Reader Table
  | 0 => refuse
  | fuel + 1 => do
    let progress ← line progress
    if ← newline then lines progress fuel
    else if (← rest).isEmpty then return progress.root
    else refuse

/-- The mark that may stand at the start of a file. -/
def byteOrderMark : Char := '\ufeff'

/-- The characters without the mark at the start. -/
def afterMark : List Char → List Char
  | c :: rest => if c = byteOrderMark then rest else c :: rest
  | [] => []

def read? (text : String) : Option Table :=
  let chars := afterMark text.toList
  (lines ⟨[], []⟩ (chars.length + 1) chars).map (·.1)

end Parcel.Toml
