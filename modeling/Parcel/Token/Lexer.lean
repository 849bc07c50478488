import Parcel.Token

/-!
# Reading tokens from a source text

At each position the longest token is taken; a word that is reserved is a keyword and no
identifier. Blanks, line ends and comments from `//` to the end of the line separate tokens.
-/

namespace Parcel

/-- A stretch of text that is no token. -/
structure LexError where
  found : String
  span : Span
  deriving DecidableEq, Repr

/-- What is wrong, in words. -/
def LexError.message (e : LexError) : String :=
  s!"unexpected character: {Text.quoted e.found}"

namespace Token

/-- The blanks and line ends that separate tokens. -/
def isSeparator (c : Char) : Bool :=
  c = ' ' || c = '\t' || c = '\n' || c = '\r'

def isIdentStart (c : Char) : Bool :=
  c.isAlpha || c = '_'

def isIdentPart (c : Char) : Bool :=
  isIdentStart c || c.isDigit

/-- The characters a numeral goes on with. -/
def isNumberPart (c : Char) : Bool :=
  c.isDigit || c = '.'

def byteLength (text : List Char) : Nat :=
  text.foldr (fun c length => c.utf8Size + length) 0

/-- The text that the inside of a string literal stands for. A backslash before a character other
than the four that are escaped stands for itself. -/
def unescape : List Char → List Char
  | '\\' :: 'n' :: rest => '\n' :: unescape rest
  | '\\' :: 't' :: rest => '\t' :: unescape rest
  | '\\' :: '\\' :: rest => '\\' :: unescape rest
  | '\\' :: '"' :: rest => '"' :: unescape rest
  | '\\' :: c :: rest => '\\' :: c :: unescape rest
  | c :: rest => c :: unescape rest
  | [] => []

/-- How far a string literal reaches: `ok` with the number of characters after the opening quote,
the closing one included, or `error` with the number of characters that belong to a literal that
is never closed. A backslash before a line end, or at the end of the text, ends a bad literal. -/
def literalLength : List Char → Except Nat Nat
  | [] => .error 0
  | '"' :: _ => .ok 1
  | '\\' :: [] => .error 0
  | '\\' :: c :: rest =>
    if c = '\n' then .error 0
    else
      match literalLength rest with
      | .ok n => .ok (n + 2)
      | .error n => .error (n + 2)
  | _ :: rest =>
    match literalLength rest with
    | .ok n => .ok (n + 1)
    | .error n => .error (n + 1)

def markOfPair? (c d : Char) : Option Mark :=
  if c = '<' ∧ d = '-' then some .arrow
  else if c = '=' ∧ d = '=' then some .equal
  else if c = '!' ∧ d = '=' then some .notEqual
  else if c = '<' ∧ d = '=' then some .lessEqual
  else if c = '>' ∧ d = '=' then some .greaterEqual
  else if c = '&' ∧ d = '&' then some .andAnd
  else if c = '|' ∧ d = '|' then some .orOr
  else if c = ':' ∧ d = ':' then some .doubleColon
  else none

def markOfChar? (c : Char) : Option Mark :=
  if c = '+' then some .plus
  else if c = '-' then some .minus
  else if c = '*' then some .star
  else if c = '/' then some .slash
  else if c = '%' then some .percent
  else if c = '<' then some .less
  else if c = '>' then some .greater
  else if c = '!' then some .bang
  else if c = '(' then some .leftParen
  else if c = ')' then some .rightParen
  else if c = '\x7b' then some .leftBrace
  else if c = '\x7d' then some .rightBrace
  else if c = '[' then some .leftBracket
  else if c = ']' then some .rightBracket
  else if c = '.' then some .dot
  else if c = ',' then some .comma
  else if c = ';' then some .semicolon
  else none

/-- The mark at the start of a text, and how many characters it has after its first. -/
def markAt? (c : Char) (rest : List Char) : Option (Mark × Nat) :=
  match rest.head?.bind (markOfPair? c) with
  | some symbol => some (symbol, 1)
  | none => (markOfChar? c).map fun symbol => (symbol, 0)

/-- A word is a keyword if it is reserved, and an identifier otherwise. -/
def ofWord (word : String) : Token :=
  match Keyword.ofSpelling? word with
  | some k => .keyword k
  | none => .ident word

/-- The token at the start of the text `c :: rest`, and how many characters of `rest` belong to it;
or how many of them belong to what is no token. -/
def first (c : Char) (rest : List Char) : Except Nat (Token × Nat) :=
  if c.isDigit then
    let more := rest.takeWhile isNumberPart
    .ok (.number (String.ofList (c :: more)), more.length)
  else if isIdentStart c then
    let more := rest.takeWhile isIdentPart
    .ok (ofWord (String.ofList (c :: more)), more.length)
  else if c = '"' then
    match literalLength rest with
    | .ok n => .ok (.text (String.ofList (unescape (rest.take (n - 1)))), n)
    | .error n => .error n
  else
    match markAt? c rest with
    | some (symbol, n) => .ok (.mark symbol, n)
    | none => .error 0

/-- Whether a comment starts with the slash `c`. -/
def startsComment (c : Char) (rest : List Char) : Bool :=
  c = '/' && rest.head? = some '/'

/-- The tokens of a text that starts at the byte offset `start`. -/
def scanFrom (start : Nat) (text : List Char) : Except LexError (List Lexeme) :=
  match text with
  | [] => .ok []
  | c :: rest =>
    if isSeparator c then scanFrom (start + c.utf8Size) rest
    else if startsComment c rest then
      let comment := rest.takeWhile (· ≠ '\n')
      scanFrom (start + byteLength (c :: comment)) (rest.drop comment.length)
    else
      match first c rest with
      | .ok (token, n) =>
        let stop := start + byteLength (c :: rest.take n)
        match scanFrom stop (rest.drop n) with
        | .ok lexemes => .ok (⟨token, ⟨start, stop⟩⟩ :: lexemes)
        | .error e => .error e
      | .error n =>
        let found := c :: rest.take n
        .error ⟨String.ofList found, ⟨start, start + byteLength found⟩⟩
termination_by text.length
decreasing_by all_goals simp only [List.length_cons, List.length_drop]; omega

/-- The tokens of a source text, in order. -/
def scan (source : String) : Except LexError (List Lexeme) :=
  scanFrom 0 source.toList

end Token

end Parcel
