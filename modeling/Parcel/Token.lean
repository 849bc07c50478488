import Parcel.Text.Quoted
import Parcel.Span

/-!
# Tokens

The words of a source text: keywords, identifiers, numerals, string literals and marks.
-/

namespace Parcel

/-- The reserved words. -/
inductive Keyword where
  | kwPackage
  | kwLoad
  | kwInclude
  | kwFunction
  | kwVar
  | kwReturn
  | kwWhile
  | kwFor
  | kwFrom
  | kwTo
  | kwLoop
  | kwBreak
  | kwContinue
  | kwIf
  | kwElse
  | kwTrue
  | kwFalse
  | kwMake
  deriving DecidableEq, Repr

/-- Operators, brackets and separators. -/
inductive Mark where
  | arrow
  | plus
  | minus
  | star
  | slash
  | percent
  | equal
  | notEqual
  | less
  | greater
  | lessEqual
  | greaterEqual
  | andAnd
  | orOr
  | bang
  | leftParen
  | rightParen
  | leftBrace
  | rightBrace
  | leftBracket
  | rightBracket
  | doubleColon
  | dot
  | comma
  | semicolon
  deriving DecidableEq, Repr

/-- A token. A numeral keeps its text, and a string literal holds the text it stands for. -/
inductive Token where
  | keyword (word : Keyword)
  | number (text : String)
  | text (value : String)
  | ident (name : String)
  | mark (symbol : Mark)
  deriving DecidableEq, Repr

namespace Keyword

/-- Every reserved word. -/
def all : List Keyword :=
  [kwPackage, kwLoad, kwInclude, kwFunction, kwVar, kwReturn, kwWhile, kwFor, kwFrom, kwTo, kwLoop,
    kwBreak, kwContinue, kwIf, kwElse, kwTrue, kwFalse, kwMake]

def spelling : Keyword → String
  | kwPackage => "package"
  | kwLoad => "load"
  | kwInclude => "include"
  | kwFunction => "function"
  | kwVar => "var"
  | kwReturn => "return"
  | kwWhile => "while"
  | kwFor => "for"
  | kwFrom => "from"
  | kwTo => "to"
  | kwLoop => "loop"
  | kwBreak => "break"
  | kwContinue => "continue"
  | kwIf => "if"
  | kwElse => "else"
  | kwTrue => "true"
  | kwFalse => "false"
  | kwMake => "make"

def kindName : Keyword → String
  | kwPackage => "Package"
  | kwLoad => "Load"
  | kwInclude => "Include"
  | kwFunction => "Function"
  | kwVar => "Var"
  | kwReturn => "Return"
  | kwWhile => "While"
  | kwFor => "For"
  | kwFrom => "From"
  | kwTo => "To"
  | kwLoop => "Loop"
  | kwBreak => "Break"
  | kwContinue => "Continue"
  | kwIf => "If"
  | kwElse => "Else"
  | kwTrue => "True"
  | kwFalse => "False"
  | kwMake => "Make"

def ofSpelling? (word : String) : Option Keyword :=
  all.find? fun k => k.spelling = word

end Keyword

namespace Mark

def spelling : Mark → String
  | arrow => "<-"
  | plus => "+"
  | minus => "-"
  | star => "*"
  | slash => "/"
  | percent => "%"
  | equal => "=="
  | notEqual => "!="
  | less => "<"
  | greater => ">"
  | lessEqual => "<="
  | greaterEqual => ">="
  | andAnd => "&&"
  | orOr => "||"
  | bang => "!"
  | leftParen => "("
  | rightParen => ")"
  | leftBrace => "\x7b"
  | rightBrace => "\x7d"
  | leftBracket => "["
  | rightBracket => "]"
  | doubleColon => "::"
  | dot => "."
  | comma => ","
  | semicolon => ";"

def kindName : Mark → String
  | arrow => "Arrow"
  | plus => "Plus"
  | minus => "Minus"
  | star => "Star"
  | slash => "Slash"
  | percent => "Percent"
  | equal => "EqEq"
  | notEqual => "NotEq"
  | less => "Lt"
  | greater => "Gt"
  | lessEqual => "LtEq"
  | greaterEqual => "GtEq"
  | andAnd => "AmpAmp"
  | orOr => "PipePipe"
  | bang => "Bang"
  | leftParen => "LParen"
  | rightParen => "RParen"
  | leftBrace => "LBrace"
  | rightBrace => "RBrace"
  | leftBracket => "LBracket"
  | rightBracket => "RBracket"
  | doubleColon => "ColonColon"
  | dot => "Dot"
  | comma => "Comma"
  | semicolon => "Semi"

end Mark

namespace Token

/-- The token as messages show it: its spelling, and a string literal in quotes. -/
def shown : Token → String
  | keyword word => word.spelling
  | number digits => digits
  | text value => Text.quoted value
  | ident name => name
  | mark symbol => symbol.spelling

def kindName : Token → String
  | keyword word => word.kindName
  | number _ => "Number"
  | text _ => "StringLit"
  | ident _ => "Ident"
  | mark symbol => symbol.kindName

/-- The token as a dump shows it: the name of its kind, and its text in quotes if it has one. -/
def dumped : Token → String
  | keyword word => word.kindName
  | number digits => s!"Number({Text.quoted digits})"
  | text value => s!"StringLit({Text.quoted value})"
  | ident name => s!"Ident({Text.quoted name})"
  | mark symbol => symbol.kindName

end Token

/-- A token together with where it stands. -/
structure Lexeme where
  token : Token
  span : Span
  deriving DecidableEq, Repr

end Parcel
