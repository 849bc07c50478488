import Parcel.Code.Tree
import Parcel.Number.Layout
import Parcel.Text.Quoted

/-!
# Listings

Resolved code as text. A structured body is shown with nested lines indented; a lowered one with a
statement on each line and its labels at the left edge.
-/

namespace Parcel.Code

def Constant.shown : Constant → String
  | .int value => toString value.val
  | .float value => listingLayout.float32 value
  | .bool value => if value then "true" else "false"
  | .string value => Text.quoted value

mutual

/-- An expression as text. -/
def Expr.shown : Expr → String
  | .literal value _ => value.shown
  | .paren inner _ => "(" ++ inner.shown ++ ")"
  | .assign target value _ => target.shown ++ " <- " ++ value.shown
  | .unary op operand _ _ => op.spelling ++ operand.shown
  | .binary left op right _ _ =>
    "(" ++ left.shown ++ " " ++ op.spelling ++ " " ++ right.shown ++ ")"
  | .call function args _ => function.qualifiedName ++ "(" ++ argumentsShown args ++ ")"
  | .methodCall function receiver args _ =>
    receiver.shown ++ "." ++ function.name ++ "(" ++ argumentsShown args ++ ")"
  | .name var _ => var.name
  | .conversion operand type _ => type.shown ++ "(" ++ operand.shown ++ ")"
  | .makeLength length type _ => "make " ++ type.shown ++ "(" ++ length.shown ++ ")"
  | .makeElements elements type _ =>
    "make " ++ type.shown ++ " \x7b" ++ argumentsShown elements ++ "\x7d"
  | .index target position _ _ => target.shown ++ "[" ++ position.shown ++ "]"
  | .unresolved _ => "?"

/-- Expressions between commas. -/
def argumentsShown : List Expr → String
  | [] => ""
  | [arg] => arg.shown
  | arg :: args => arg.shown ++ ", " ++ argumentsShown args

end

/-- The blanks before a line. -/
def indent (depth : Nat) : String :=
  String.ofList (List.replicate (4 * depth) ' ')

/-- An initializer after its declaration, if there is one. -/
def initializerShown : Option Expr → String
  | some value => " <- " ++ value.shown
  | none => ""

mutual

/-- A statement as text; the lines inside it are indented more than `depth`. -/
def Stmt.shownAt (depth : Nat) : Stmt → String
  | .declare var initializer =>
    "var " ++ var.name ++ " " ++ var.type.shown ++ initializerShown initializer
  | .ret none => "return"
  | .ret (some value) => "return " ++ value.shown
  | .whileLoop condition body _ => "while " ++ condition.shown ++ " " ++ body.shownAt depth
  | .forLoop initial condition action body _ =>
    "for (" ++ initial.shownAt depth ++ "; " ++ condition.shown ++ "; " ++ action.shownAt depth
      ++ ") " ++ body.shownAt depth
  | .fromTo iterator lower upper body _ =>
    "from " ++ iterator.name ++ " <- " ++ lower.shown ++ " to " ++ upper.shown ++ " "
      ++ body.shownAt depth
  | .loop _ count body _ => "loop " ++ count.shown ++ " " ++ body.shownAt depth
  | .block stmts => "\x7b\n" ++ linesAt (depth + 1) stmts ++ indent depth ++ "\x7d"
  | .expr value => value.shown
  | .ifElse condition thenBranch none =>
    "if " ++ condition.shown ++ " " ++ thenBranch.shownAt depth
  | .ifElse condition thenBranch (some elseBranch) =>
    "if " ++ condition.shown ++ " " ++ thenBranch.shownAt depth ++ " else "
      ++ elseBranch.shownAt depth
  | .label label => label.shown ++ ":"
  | .goto label => "goto " ++ label.shown
  | .gotoIf condition label => "gotoif " ++ condition.shown ++ " " ++ label.shown
  | .delete var => "delete " ++ var.name
  | .approach var target => "approach " ++ var.name ++ " -> " ++ target.name

def linesAt (depth : Nat) : List Stmt → String
  | [] => ""
  | stmt :: stmts => indent depth ++ stmt.shownAt depth ++ "\n" ++ linesAt depth stmts

end

/-- A statement as text. -/
def Stmt.shown (stmt : Stmt) : String :=
  stmt.shownAt 0

/-- A line of lowered code: labels stand at the left edge. -/
def loweredLine : Stmt → String
  | .label label => label.shown ++ ":\n"
  | stmt => indent 1 ++ stmt.shownAt 1 ++ "\n"

def Body.listing : Body → String
  | .structured body => body.shown ++ "\n"
  | .lowered code => String.join (code.toList.map loweredLine)

/-- A function: its signature on a line, and its body. -/
def Function.listing (f : Function) : String :=
  let params := f.symbol.params.map fun p => p.name ++ " " ++ p.type.shown
  "function " ++ f.symbol.qualifiedName ++ "(" ++ String.intercalate ", " params ++ ") "
    ++ f.symbol.returnType.shown ++ "\n" ++ f.body.listing

/-- Every function of a program in the order of binding, with an empty line between two. -/
def Program.listing (p : Program) : String :=
  String.intercalate "\n" (p.functions.map Function.listing)

end Parcel.Code
