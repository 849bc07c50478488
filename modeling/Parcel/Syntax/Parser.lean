import Parcel.Syntax.Tree
import Parcel.Token

/-!
# Parsing

A recursive-descent parser over the tokens of one source file. Statements may be followed by a
semicolon; the value of a `return` has to start on the line of the `return`. Binary operators bind
on six levels, from `||`, the loosest, to the multiplicative ones.

Each production takes a bound on the depth of its recursion. `parse` starts with more than any token
list needs: between two tokens that are consumed there are fewer than sixteen nested productions.
-/

namespace Parcel.Syntax

/-- What a production needs next. -/
inductive Expectation where
  | token (token : Token)
  | identifier
  | member
  | functionBody
  | arrayContents
  | expression
  /-- The bound on the depth of the recursion is used up. -/
  | lessNesting
  deriving DecidableEq, Repr

def Expectation.shown : Expectation → String
  | .token wanted => s!"`{wanted.shown}`"
  | .identifier => "identifier"
  | .member => "`package`, `load`, `var` or `function`"
  | .functionBody => "function body"
  | .arrayContents => "`(` or `\x7b` after array type"
  | .expression => "expression"
  | .lessNesting => "less nesting"

/-- A token that does not fit where it stands; none stands at the end of the file. -/
structure SyntaxError where
  expected : Expectation
  found : Option Token
  span : Span
  deriving DecidableEq, Repr

/-- What is wrong, in words. -/
def SyntaxError.message (e : SyntaxError) : String :=
  let found := match e.found with
    | some token => s!"`{token.shown}`"
    | none => "end of file"
  s!"expected {e.expected.shown}, found {found}"

/-- What a parser knows of the source text besides its tokens. -/
structure Source where
  /-- The number of bytes. -/
  size : Nat
  /-- The offsets of the line ends, in order. -/
  lineEnds : List Nat
  deriving DecidableEq, Repr

/-- The offsets of the line ends of a text that starts at `start`. -/
def lineEndsFrom (start : Nat) : List Char → List Nat
  | [] => []
  | c :: rest =>
    let later := lineEndsFrom (start + c.utf8Size) rest
    if c = '\n' then start :: later else later

def Source.ofText (text : String) : Source :=
  ⟨text.utf8ByteSize, lineEndsFrom 0 text.toList⟩

/-- Where a parser stands: the tokens ahead, and the end of the last token it consumed. -/
structure Cursor where
  ahead : List Lexeme
  consumedTo : Nat

/-- A production: it reads from a cursor and moves it forward, or fails. -/
abbrev Parser (α : Type) := StateT Cursor (Except SyntaxError) α

namespace Parser

def peek? : Parser (Option Token) := do
  return (← get).ahead.head?.map (·.token)

/-- The span of the next token; the end of the source when there is none. -/
def here (src : Source) : Parser Span := do
  match (← get).ahead with
  | lexeme :: _ => return lexeme.span
  | [] => return ⟨src.size, src.size⟩

/-- Consumes the next token. -/
def advance : Parser Unit :=
  modify fun
    | ⟨lexeme :: rest, _⟩ => ⟨rest, lexeme.span.stop⟩
    | cursor => cursor

/-- Fails at the next token. -/
def unexpected {α : Type} (src : Source) (expected : Expectation) : Parser α := do
  let found ← peek?
  let span ← here src
  throw ⟨expected, found, span⟩

/-- Whether the next token is the given one. -/
def at? (token : Token) : Parser Bool := do
  return (← peek?) == some token

/-- Whether the next token is an identifier. -/
def atIdent? : Parser Bool := do
  match ← peek? with
  | some (.ident _) => return true
  | _ => return false

/-- Consumes the given token if it is next. -/
def accept (token : Token) : Parser Bool := do
  if ← at? token then
    advance
    return true
  else
    return false

/-- Consumes the given token, which has to be next. -/
def expect (src : Source) (token : Token) : Parser Unit := do
  if ← at? token then advance else unexpected src (.token token)

def ident (src : Source) : Parser Name := do
  let span ← here src
  match ← peek? with
  | some (.ident name) =>
    advance
    return ⟨name, span⟩
  | _ => unexpected src .identifier

/-- The span from `start` to the end of the last token consumed. -/
def spanFrom (start : Nat) : Parser Span := do
  return ⟨start, max (← get).consumedTo start⟩

/-- The number of line ends before an offset. -/
def lineAt (src : Source) (offset : Nat) : Nat :=
  src.lineEnds.countP (· < offset)

/-- Whether the next token starts on the line on which the last one ended. -/
def onSameLine (src : Source) : Parser Bool := do
  let next ← here src
  return lineAt src (← get).consumedTo == lineAt src next.start

/-- Whether the next token can start an expression. -/
def atExpression? : Parser Bool := do
  match ← peek? with
  | some (.number _) | some (.text _) | some (.ident _) => return true
  | some (.keyword word) => return word == .kwTrue || word == .kwFalse || word == .kwMake
  | some (.mark symbol) =>
    return symbol == .leftParen || symbol == .minus || symbol == .plus || symbol == .bang
  | none => return false

/-! ### Types -/

/-- A type: a name, and an argument in brackets or none. -/
def typeClause (src : Source) : Nat → Parser TypeClause
  | 0 => unexpected src .lessNesting
  | fuel + 1 => do
    let name ← ident src
    if ← accept (.mark .leftBracket) then
      let argument ← typeClause src fuel
      expect src (.mark .rightBracket)
      return .mk name.text [argument] (← spanFrom name.span.start)
    else
      return .mk name.text [] (← spanFrom name.span.start)

/-- A type, if the next token is an identifier. -/
def typeClause? (src : Source) (fuel : Nat) : Parser (Option TypeClause) := do
  if ← atIdent? then return some (← typeClause src fuel) else return none

/-! ### Expressions -/

def binaryLevels : Nat := 6

/-- The level on which a binary operator binds; a higher one binds tighter. -/
def binaryLevel : BinaryOp → Nat
  | .or => 0
  | .and => 1
  | .eq | .ne => 2
  | .lt | .gt | .le | .ge => 3
  | .add | .sub => 4
  | .mul | .div | .rem => 5

def binaryOp? : Mark → Option BinaryOp
  | .orOr => some .or
  | .andAnd => some .and
  | .equal => some .eq
  | .notEqual => some .ne
  | .less => some .lt
  | .greater => some .gt
  | .lessEqual => some .le
  | .greaterEqual => some .ge
  | .plus => some .add
  | .minus => some .sub
  | .star => some .mul
  | .slash => some .div
  | .percent => some .rem
  | _ => none

def binaryOpAt? (level : Nat) : Token → Option BinaryOp
  | .mark symbol =>
    match binaryOp? symbol with
    | some op => if binaryLevel op = level then some op else none
    | none => none
  | _ => none

def unaryOp? : Token → Option UnaryOp
  | .mark .minus => some .neg
  | .mark .plus => some .plus
  | .mark .bang => some .not
  | _ => none

mutual

/-- An expression: an assignment, or an operand of the loosest level. -/
def expression (src : Source) : Nat → Parser Expr
  | 0 => unexpected src .lessNesting
  | fuel + 1 => do
    let target ← binary src fuel 0
    if ← accept (.mark .arrow) then
      let value ← expression src fuel
      return .assign target value (target.span.merge value.span)
    else
      return target

/-- Operands of the next level joined by the operators of this one, to the left. -/
def binary (src : Source) : Nat → Nat → Parser Expr
  | 0, _ => unexpected src .lessNesting
  | fuel + 1, level => do
    if level < binaryLevels then
      let left ← binary src fuel (level + 1)
      binaryRest src fuel level left
    else
      unary src fuel

/-- The operators of a level and their right operands, after a left operand. -/
def binaryRest (src : Source) : Nat → Nat → Expr → Parser Expr
  | 0, _, _ => unexpected src .lessNesting
  | fuel + 1, level, left => do
    match (← peek?).bind (binaryOpAt? level) with
    | some op =>
      advance
      let right ← binary src fuel (level + 1)
      binaryRest src fuel level (.binary left op right (left.span.merge right.span))
    | none => return left

def unary (src : Source) : Nat → Parser Expr
  | 0 => unexpected src .lessNesting
  | fuel + 1 => do
    match (← peek?).bind unaryOp? with
    | some op =>
      let start := (← here src).start
      advance
      let operand ← unary src fuel
      return .unary op operand (← spanFrom start)
    | none =>
      let operand ← primary src fuel
      selections src fuel operand

def selections (src : Source) : Nat → Expr → Parser Expr
  | 0, _ => unexpected src .lessNesting
  | fuel + 1, operand => do
    if ← accept (.mark .leftBracket) then
      let index ← expression src fuel
      expect src (.mark .rightBracket)
      selections src fuel (.index operand index (← spanFrom operand.span.start))
    else if ← accept (.mark .dot) then
      let name ← ident src
      let args ← arguments src fuel .leftParen .rightParen
      selections src fuel (.methodCall operand name args (← spanFrom operand.span.start))
    else
      return operand

/-- A literal, a parenthesis, a new array, a call or a name. -/
def primary (src : Source) : Nat → Parser Expr
  | 0 => unexpected src .lessNesting
  | fuel + 1 => do
    let start := (← here src).start
    match ← peek? with
    | some (.number digits) =>
      advance
      return .literal (.number digits) (← spanFrom start)
    | some (.text value) =>
      advance
      return .literal (.string value) (← spanFrom start)
    | some (.keyword .kwTrue) =>
      advance
      return .literal (.bool true) (← spanFrom start)
    | some (.keyword .kwFalse) =>
      advance
      return .literal (.bool false) (← spanFrom start)
    | some (.mark .leftParen) =>
      advance
      let inner ← expression src fuel
      expect src (.mark .rightParen)
      return .paren inner (← spanFrom start)
    | some (.keyword .kwMake) =>
      advance
      let type ← typeClause src fuel
      if ← accept (.mark .leftParen) then
        let length ← expression src fuel
        expect src (.mark .rightParen)
        return .makeArray type (some length) none (← spanFrom start)
      else if ← at? (.mark .leftBrace) then
        let elements ← arguments src fuel .leftBrace .rightBrace
        return .makeArray type none (some elements) (← spanFrom start)
      else
        unexpected src .arrayContents
    | some (.ident _) =>
      let name ← ident src
      match (← get).ahead with
      | ⟨.mark .doubleColon, _⟩ :: ⟨.ident _, _⟩ :: _ =>
        advance
        let function ← ident src
        let args ← arguments src fuel .leftParen .rightParen
        return .call (some name) function args (← spanFrom start)
      | ⟨.mark .leftParen, _⟩ :: _ =>
        let args ← arguments src fuel .leftParen .rightParen
        return .call none name args (← spanFrom start)
      | _ => return .name name.text (← spanFrom start)
    | _ => unexpected src .expression

/-- Expressions between commas, inside a pair of brackets. -/
def arguments (src : Source) : Nat → Mark → Mark → Parser (List Expr)
  | 0, _, _ => unexpected src .lessNesting
  | fuel + 1, opening, closing => do
    expect src (.mark opening)
    if ← accept (.mark closing) then
      return []
    else
      let args ← argumentsRest src fuel
      expect src (.mark closing)
      return args

def argumentsRest (src : Source) : Nat → Parser (List Expr)
  | 0 => unexpected src .lessNesting
  | fuel + 1 => do
    let arg ← expression src fuel
    if ← accept (.mark .comma) then
      let rest ← argumentsRest src fuel
      return arg :: rest
    else
      return [arg]

end

/-- An expression in parentheses, as the head of a statement. -/
def parenthesized (src : Source) (fuel : Nat) : Parser Expr := do
  expect src (.mark .leftParen)
  let inner ← expression src fuel
  expect src (.mark .rightParen)
  return inner

/-! ### Statements and members -/

/-- A variable declaration. -/
def varDecl (src : Source) (fuel : Nat) : Parser VarDecl := do
  let start := (← here src).start
  expect src (.keyword .kwVar)
  let name ← ident src
  let type ← typeClause? src fuel
  if ← accept (.mark .arrow) then
    let initializer ← expression src fuel
    return ⟨name, type, some initializer, ← spanFrom start⟩
  else
    return ⟨name, type, none, ← spanFrom start⟩

/-- A declaration or an expression, as allowed in the head of a `for`. -/
def simpleStatement (src : Source) (fuel : Nat) : Parser Stmt := do
  if ← at? (.keyword .kwVar) then
    return .declaration (← varDecl src fuel)
  else
    return .expr (← expression src fuel)

mutual

def statement (src : Source) : Nat → Parser Stmt
  | 0 => unexpected src .lessNesting
  | fuel + 1 => do
    let stmt ← bareStatement src fuel
    let _ ← accept (.mark .semicolon)
    return stmt

def bareStatement (src : Source) : Nat → Parser Stmt
  | 0 => unexpected src .lessNesting
  | fuel + 1 => do
    let start := (← here src).start
    match ← peek? with
    | some (.keyword .kwVar) => return .declaration (← varDecl src fuel)
    | some (.keyword .kwReturn) =>
      advance
      if (← atExpression?) && (← onSameLine src) then
        let value ← expression src fuel
        return .ret (some value) (← spanFrom start)
      else
        return .ret none (← spanFrom start)
    | some (.keyword .kwWhile) =>
      advance
      let condition ← parenthesized src fuel
      let body ← statement src fuel
      return .whileLoop condition body (← spanFrom start)
    | some (.keyword .kwFor) =>
      advance
      expect src (.mark .leftParen)
      let initial ← simpleStatement src fuel
      expect src (.mark .semicolon)
      let condition ← expression src fuel
      expect src (.mark .semicolon)
      let action ← simpleStatement src fuel
      expect src (.mark .rightParen)
      let body ← statement src fuel
      return .forLoop initial condition action body (← spanFrom start)
    | some (.keyword .kwFrom) =>
      advance
      let iterator ← ident src
      expect src (.mark .arrow)
      let lower ← expression src fuel
      expect src (.keyword .kwTo)
      let upper ← expression src fuel
      let body ← statement src fuel
      return .fromTo iterator lower upper body (← spanFrom start)
    | some (.keyword .kwLoop) =>
      advance
      let count ← parenthesized src fuel
      let body ← statement src fuel
      return .loop count body (← spanFrom start)
    | some (.keyword .kwBreak) =>
      advance
      return .breakLoop (← spanFrom start)
    | some (.keyword .kwContinue) =>
      advance
      return .continueLoop (← spanFrom start)
    | some (.keyword .kwIf) =>
      advance
      let condition ← parenthesized src fuel
      let thenBranch ← statement src fuel
      if ← accept (.keyword .kwElse) then
        let elseBranch ← statement src fuel
        return .ifElse condition thenBranch (some elseBranch) (← spanFrom start)
      else
        return .ifElse condition thenBranch none (← spanFrom start)
    | some (.mark .leftBrace) =>
      advance
      let stmts ← blockRest src fuel
      return .block stmts (← spanFrom start)
    | _ =>
      let value ← expression src fuel
      return .expr (value.withSpan (← spanFrom start))

def blockRest (src : Source) : Nat → Parser (List Stmt)
  | 0 => unexpected src .lessNesting
  | fuel + 1 => do
    match ← peek? with
    | some (.mark .rightBrace) =>
      advance
      return []
    | none => unexpected src (.token (.mark .rightBrace))
    | some _ =>
      let stmt ← statement src fuel
      let rest ← blockRest src fuel
      return stmt :: rest

end

def param (src : Source) (fuel : Nat) : Parser Param := do
  let name ← ident src
  let type ← typeClause src fuel
  return ⟨name, type⟩

def params (src : Source) : Nat → Parser (List Param)
  | 0 => unexpected src .lessNesting
  | fuel + 1 => do
    let first ← param src fuel
    if ← accept (.mark .comma) then
      let rest ← params src fuel
      return first :: rest
    else
      return [first]

def functionDecl (src : Source) (fuel : Nat) : Parser FunctionDecl := do
  let start := (← here src).start
  expect src (.keyword .kwFunction)
  let name ← ident src
  expect src (.mark .leftParen)
  let parameters ← if ← at? (.mark .rightParen) then pure [] else params src fuel
  expect src (.mark .rightParen)
  let returnType ← typeClause? src fuel
  if ← at? (.mark .leftBrace) then
    let body ← statement src fuel
    return ⟨name, parameters, returnType, body, ← spanFrom start⟩
  else
    unexpected src .functionBody

def member (src : Source) (fuel : Nat) : Parser Member := do
  match ← peek? with
  | some (.keyword .kwPackage) =>
    advance
    return .package (← ident src)
  | some (.keyword .kwLoad) =>
    advance
    let package ← ident src
    let included ← accept (.keyword .kwInclude)
    return .load package included
  | some (.keyword .kwVar) => return .global (← varDecl src fuel)
  | some (.keyword .kwFunction) => return .function (← functionDecl src fuel)
  | _ => unexpected src .member

/-- The members up to the end of the file, each with the semicolon after it, if there is one. -/
def members (src : Source) : Nat → Parser (List Member)
  | 0 => unexpected src .lessNesting
  | fuel + 1 => do
    match ← peek? with
    | none => return []
    | some _ =>
      let first ← member src fuel
      let _ ← accept (.mark .semicolon)
      let rest ← members src fuel
      return first :: rest

end Parser

/-- More nested productions than a list of so many tokens can need. -/
def nestingBound (tokens : Nat) : Nat :=
  16 * (tokens + 1)

def parse (src : Source) (lexemes : List Lexeme) : Except SyntaxError Program :=
  match (Parser.members src (nestingBound lexemes.length)).run ⟨lexemes, 0⟩ with
  | .ok (members, _) => .ok ⟨members⟩
  | .error e => .error e

end Parcel.Syntax
