import Parcel.Span
import Parcel.Symbol.Basic

/-!
# Resolved code

The program after its names, types and operators are resolved. Structured statements and jumps live
in one type: lowering turns the former into the latter, and the machine runs lists of statements
that are lowered.
-/

namespace Parcel.Code

/-- A value that is known before the program runs. -/
inductive Constant where
  | int (value : Word)
  | float (value : Float32)
  | bool (value : Bool)
  | string (value : String)

def Constant.type : Constant → Ty
  | .int _ => .int
  | .float _ => .float
  | .bool _ => .bool
  | .string _ => .string

/-- The unary operators. -/
inductive UnaryOp where
  | negate
  | identity
  | logicalNot
  deriving DecidableEq, Repr

/-- The binary operators. -/
inductive BinaryOp where
  | add
  | sub
  | mul
  | div
  | rem
  /-- Joins two texts. -/
  | concat
  | eq
  | ne
  | lt
  | gt
  | le
  | ge
  | and
  | or
  deriving DecidableEq, Repr

def UnaryOp.all : List UnaryOp :=
  [.negate, .identity, .logicalNot]

def BinaryOp.all : List BinaryOp :=
  [.add, .sub, .mul, .div, .rem, .concat, .eq, .ne, .lt, .gt, .le, .ge, .and, .or]

def UnaryOp.spelling : UnaryOp → String
  | .negate => "-"
  | .identity => "+"
  | .logicalNot => "!"

def BinaryOp.spelling : BinaryOp → String
  | .add | .concat => "+"
  | .sub => "-"
  | .mul => "*"
  | .div => "/"
  | .rem => "%"
  | .eq => "=="
  | .ne => "!="
  | .lt => "<"
  | .gt => ">"
  | .le => "<="
  | .ge => ">="
  | .and => "&&"
  | .or => "||"

/-- A typed expression. -/
inductive Expr where
  | literal (value : Constant) (span : Span)
  | paren (inner : Expr) (span : Span)
  /-- Stores in a variable or in an element of an array. -/
  | assign (target value : Expr) (span : Span)
  | unary (op : UnaryOp) (operand : Expr) (type : Ty) (span : Span)
  | binary (left : Expr) (op : BinaryOp) (right : Expr) (type : Ty) (span : Span)
  | call (function : FunctionSymbol) (arguments : List Expr) (span : Span)
  | methodCall (function : FunctionSymbol) (receiver : Expr) (arguments : List Expr) (span : Span)
  | name (var : Var) (span : Span)
  /-- The operand as a value of another type. -/
  | conversion (operand : Expr) (type : Ty) (span : Span)
  /-- A new array of so many elements. -/
  | makeLength (length : Expr) (type : Ty) (span : Span)
  /-- A new array of these elements. -/
  | makeElements (elements : List Expr) (type : Ty) (span : Span)
  | index (target index : Expr) (type : Ty) (span : Span)
  /-- What could not be resolved. -/
  | unresolved (span : Span)

namespace Expr

/-- Where the expression stands in its source. -/
def span : Expr → Span
  | literal _ span | paren _ span | assign _ _ span | unary _ _ _ span | binary _ _ _ _ span
  | call _ _ span | methodCall _ _ _ span | name _ span | conversion _ _ span
  | makeLength _ _ span | makeElements _ _ span | index _ _ _ span | unresolved span => span

def type : Expr → Ty
  | literal value _ => value.type
  | paren inner _ => inner.type
  | assign target _ _ => target.type
  | call function _ _ | methodCall function _ _ _ => function.returnType
  | name var _ => var.type
  | unary _ _ type _ | binary _ _ _ type _ | conversion _ type _ | makeLength _ type _
  | makeElements _ type _ | index _ _ type _ => type
  | unresolved _ => .unresolved

def withSpan (span : Span) : Expr → Expr
  | literal value _ => literal value span
  | paren inner _ => paren inner span
  | assign target value _ => assign target value span
  | unary op operand type _ => unary op operand type span
  | binary left op right type _ => binary left op right type span
  | call function args _ => call function args span
  | methodCall function receiver args _ => methodCall function receiver args span
  | name var _ => name var span
  | conversion operand type _ => conversion operand type span
  | makeLength length type _ => makeLength length type span
  | makeElements elements type _ => makeElements elements type span
  | index target position type _ => index target position type span
  | unresolved _ => unresolved span

/-- The integer constant `n`. -/
def int (n : Int) (span : Span) : Expr :=
  literal (.int (Word.wrap .int n)) span

end Expr

/-- Where `break` and `continue` jump to in a loop. -/
structure LoopLabels where
  onBreak : Label
  onContinue : Label
  deriving DecidableEq, Repr

/-- A statement. -/
inductive Stmt where
  | declare (var : Var) (initializer : Option Expr)
  | ret (value : Option Expr)
  | whileLoop (condition : Expr) (body : Stmt) (labels : LoopLabels)
  | forLoop (initial : Stmt) (condition : Expr) (action : Stmt) (body : Stmt)
      (labels : LoopLabels)
  | fromTo (iterator : Var) (lower upper : Expr) (body : Stmt) (labels : LoopLabels)
  /-- Runs the body a number of times; the iterator is hidden. -/
  | loop (iterator : Var) (count : Expr) (body : Stmt) (labels : LoopLabels)
  | block (stmts : List Stmt)
  | expr (value : Expr)
  | ifElse (condition : Expr) (thenBranch : Stmt) (elseBranch : Option Stmt)
  | label (label : Label)
  | goto (label : Label)
  | gotoIf (condition : Expr) (label : Label)
  /-- The end of the scope of a local variable. -/
  | delete (var : Var)
  /-- Moves a variable one step toward another. -/
  | approach (var target : Var)

/-- Whether the statement may stand in lowered code. -/
def Stmt.isLowered : Stmt → Bool
  | .declare _ _ | .ret _ | .expr _ | .label _ | .goto _ | .gotoIf _ _ | .delete _
  | .approach _ _ => true
  | .whileLoop _ _ _ | .forLoop _ _ _ _ _ | .fromTo _ _ _ _ _ | .loop _ _ _ _ | .block _
  | .ifElse _ _ _ => false

/-- The body of a function, before and after lowering. -/
inductive Body where
  | structured (body : Stmt)
  | lowered (code : Array Stmt)

/-- A function with its body. -/
structure Function where
  symbol : FunctionSymbol
  /-- The index of the source file. -/
  file : Option Nat
  body : Body

/-- Declarations of global variables of one package that follow one another in one file. -/
structure GlobalGroup where
  package : String
  file : Option Nat
  stmts : List Stmt

/-- The bodies of functions and the declarations of global variables, each in the order of
binding. -/
structure Program where
  functions : List Function
  globals : List GlobalGroup

namespace Program

/-- The program without functions and variables. -/
def empty : Program := ⟨[], []⟩

def function? (p : Program) (id : FunctionId) : Option Function :=
  p.functions.find? (·.symbol.id = id)

/-- The program with one more function, or with another body for one that it has. -/
def insert (p : Program) (f : Function) : Program :=
  if (p.function? f.symbol.id).isSome then
    { p with functions := p.functions.map fun g => if g.symbol.id = f.symbol.id then f else g }
  else { p with functions := p.functions ++ [f] }

/-- Adds a declaration to the last group if it is of the same package and file, and as a new group
otherwise. -/
def addToGroups (package : String) (file : Option Nat) (stmt : Stmt) :
    List GlobalGroup → List GlobalGroup
  | [] => [⟨package, file, [stmt]⟩]
  | [last] =>
    if last.package = package ∧ last.file = file then
      [{ last with stmts := last.stmts ++ [stmt] }]
    else [last, ⟨package, file, [stmt]⟩]
  | group :: groups => group :: addToGroups package file stmt groups

/-- The program with one more declaration of a global variable. -/
def addGlobal (p : Program) (package : String) (file : Option Nat) (stmt : Stmt) : Program :=
  { p with globals := addToGroups package file stmt p.globals }

/-- The number of declarations of global variables. -/
def globalCount (p : Program) : Nat :=
  p.globals.foldr (fun group count => group.stmts.length + count) 0

end Program

end Parcel.Code
