import Parcel.Span

/-!
# Syntax trees

A source file as written: names are not resolved and types are not known. Every node holds the span
of the text it was read from.
-/

namespace Parcel.Syntax

/-- The binary operators as written. -/
inductive BinaryOp where
  | add
  | sub
  | mul
  | div
  | rem
  | eq
  | ne
  | lt
  | gt
  | le
  | ge
  | and
  | or
  deriving DecidableEq, Repr

/-- The unary operators as written. -/
inductive UnaryOp where
  | neg
  | plus
  | not
  deriving DecidableEq, Repr

def BinaryOp.all : List BinaryOp :=
  [.add, .sub, .mul, .div, .rem, .eq, .ne, .lt, .gt, .le, .ge, .and, .or]

def UnaryOp.all : List UnaryOp :=
  [.neg, .plus, .not]

def BinaryOp.spelling : BinaryOp → String
  | .add => "+"
  | .sub => "-"
  | .mul => "*"
  | .div => "/"
  | .rem => "%"
  | .eq => "=="
  | .ne => "!="
  | .lt => "<"
  | .gt => ">"
  | .le => "<="
  | .ge => ">="
  | .and => "&&"
  | .or => "||"

def UnaryOp.spelling : UnaryOp → String
  | .neg => "-"
  | .plus => "+"
  | .not => "!"

/-- A type as written: a name and its type arguments in brackets. -/
inductive TypeClause where
  | mk (name : String) (arguments : List TypeClause) (span : Span)

namespace TypeClause

def name : TypeClause → String
  | mk name _ _ => name

def span : TypeClause → Span
  | mk _ _ span => span

mutual

def shown : TypeClause → String
  | mk name arguments _ => name ++ argumentsShown arguments

def argumentsShown : List TypeClause → String
  | [] => ""
  | argument :: rest => "[" ++ argument.shown ++ "]" ++ argumentsShown rest

end

end TypeClause

/-- A literal. A numeral keeps its text, which may turn out to be malformed. -/
inductive Literal where
  | number (text : String)
  | string (value : String)
  | bool (value : Bool)
  deriving DecidableEq, Repr

/-- An expression as written. -/
inductive Expr where
  | literal (value : Literal) (span : Span)
  /-- `( inner )` -/
  | paren (inner : Expr) (span : Span)
  /-- `target <- value` -/
  | assign (target value : Expr) (span : Span)
  | unary (op : UnaryOp) (operand : Expr) (span : Span)
  | binary (left : Expr) (op : BinaryOp) (right : Expr) (span : Span)
  /-- `name(arguments)` or `package::name(arguments)` -/
  | call (package : Option Name) (name : Name) (arguments : List Expr) (span : Span)
  /-- `receiver.name(arguments)` -/
  | methodCall (receiver : Expr) (name : Name) (arguments : List Expr) (span : Span)
  | name (text : String) (span : Span)
  /-- `make T(length)` or `make T { elements }` -/
  | makeArray (type : TypeClause) (length : Option Expr) (elements : Option (List Expr))
      (span : Span)
  /-- `target[index]` -/
  | index (target index : Expr) (span : Span)

/-- Where an expression stands. -/
def Expr.span : Expr → Span
  | .literal _ span | .paren _ span | .assign _ _ span | .unary _ _ span | .binary _ _ _ span
  | .call _ _ _ span | .methodCall _ _ _ span | .name _ span | .makeArray _ _ _ span
  | .index _ _ span => span

/-- The expression, said to stand elsewhere. -/
def Expr.withSpan (span : Span) : Expr → Expr
  | .literal value _ => .literal value span
  | .paren inner _ => .paren inner span
  | .assign target value _ => .assign target value span
  | .unary op operand _ => .unary op operand span
  | .binary left op right _ => .binary left op right span
  | .call package callee arguments _ => .call package callee arguments span
  | .methodCall receiver callee arguments _ => .methodCall receiver callee arguments span
  | .name text _ => .name text span
  | .makeArray type length elements _ => .makeArray type length elements span
  | .index target place _ => .index target place span

/-- `var name type <- initializer`, where the type or the initializer may be missing. -/
structure VarDecl where
  name : Name
  type : Option TypeClause
  initializer : Option Expr
  span : Span

/-- A statement as written. -/
inductive Stmt where
  | declaration (decl : VarDecl)
  | ret (value : Option Expr) (span : Span)
  | whileLoop (condition : Expr) (body : Stmt) (span : Span)
  | forLoop (initial : Stmt) (condition : Expr) (action : Stmt) (body : Stmt) (span : Span)
  | fromTo (iterator : Name) (lower upper : Expr) (body : Stmt) (span : Span)
  | loop (count : Expr) (body : Stmt) (span : Span)
  | breakLoop (span : Span)
  | continueLoop (span : Span)
  | block (stmts : List Stmt) (span : Span)
  /-- An expression used as a statement. -/
  | expr (value : Expr)
  | ifElse (condition : Expr) (thenBranch : Stmt) (elseBranch : Option Stmt) (span : Span)

/-- Where a statement stands. -/
def Stmt.span : Stmt → Span
  | .declaration decl => decl.span
  | .expr value => value.span
  | .ret _ span | .whileLoop _ _ span | .forLoop _ _ _ _ span | .fromTo _ _ _ _ span
  | .loop _ _ span | .breakLoop span | .continueLoop span | .block _ span
  | .ifElse _ _ _ span => span

/-- A parameter of a function. -/
structure Param where
  name : Name
  type : TypeClause

/-- A function as written; without a return type it returns nothing. -/
structure FunctionDecl where
  name : Name
  params : List Param
  returnType : Option TypeClause
  body : Stmt
  span : Span

/-- A member of a source file. -/
inductive Member where
  | package (name : Name)
  /-- `load package`, or `load package include` to search it in unqualified calls. -/
  | load (package : Name) (included : Bool)
  | function (decl : FunctionDecl)
  | global (decl : VarDecl)

/-- One source file. -/
structure Program where
  members : List Member

/-- The package of a file that names none. -/
def defaultPackage : String := "main"

namespace Program

def packageOf? : Member → Option String
  | .package name => some name.text
  | _ => none

/-- The package a file belongs to: the one its first `package` member names. -/
def package (program : Program) : String :=
  (program.members.findSome? packageOf?).getD defaultPackage

/-- The functions a file declares, in order. -/
def functions (program : Program) : List FunctionDecl :=
  program.members.filterMap fun
    | .function decl => some decl
    | _ => none

end Program

end Parcel.Syntax
