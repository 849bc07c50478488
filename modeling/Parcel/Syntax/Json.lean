import Parcel.Json
import Parcel.Syntax.Tree

/-!
# Syntax trees as JSON documents

A node with a span is an object with the members `node` and `span`. A node with a choice of forms
is an object whose only member is named for the form, or the name alone where a form has no parts.
-/

namespace Parcel

def Span.toJson (s : Span) : Json :=
  .object [("start", .number s.start), ("end", .number s.stop)]

namespace Syntax

def spanned (node : Json) (span : Span) : Json :=
  .object [("node", node), ("span", span.toJson)]

/-- A node of a named form. -/
def form (name : String) (contents : Json) : Json :=
  .object [(name, contents)]

/-- An identifier with its span. -/
def nameJson (name : Name) : Json :=
  spanned (.string name.text) name.span

def optional {α : Type} (encode : α → Json) : Option α → Json
  | some part => encode part
  | none => .null

def BinaryOp.formName : BinaryOp → String
  | .add => "Add"
  | .sub => "Sub"
  | .mul => "Mul"
  | .div => "Div"
  | .rem => "Rem"
  | .eq => "Eq"
  | .ne => "Ne"
  | .lt => "Lt"
  | .gt => "Gt"
  | .le => "Le"
  | .ge => "Ge"
  | .and => "And"
  | .or => "Or"

def UnaryOp.formName : UnaryOp → String
  | .neg => "Neg"
  | .plus => "Plus"
  | .not => "Not"

mutual

def TypeClause.toJson : TypeClause → Json
  | .mk name arguments span =>
    spanned (.object [("name", .string name), ("subtypes", .array (typesJson arguments))]) span

def typesJson : List TypeClause → List Json
  | [] => []
  | type :: types => type.toJson :: typesJson types

end

def Literal.toJson : Literal → Json
  | .number text => form "Number" (.string text)
  | .string value => form "String" (.string value)
  | .bool value => form "Bool" (.bool value)

mutual

def Expr.nodeJson : Expr → Json
  | .literal value _ => form "Literal" value.toJson
  | .paren inner _ => form "Paren" (spanned inner.nodeJson inner.span)
  | .assign target value _ =>
    form "Assign" (.object
      [("target", spanned target.nodeJson target.span),
        ("value", spanned value.nodeJson value.span)])
  | .unary op operand _ =>
    form "Unary" (.object
      [("op", .string op.formName), ("operand", spanned operand.nodeJson operand.span)])
  | .binary left op right _ =>
    form "Binary" (.object
      [("left", spanned left.nodeJson left.span), ("op", .string op.formName),
        ("right", spanned right.nodeJson right.span)])
  | .call package name args _ =>
    form "Call" (.object
      [("package", optional nameJson package), ("name", nameJson name),
        ("args", .array (exprsJson args))])
  | .methodCall receiver name args _ =>
    form "MethodCall" (.object
      [("receiver", spanned receiver.nodeJson receiver.span), ("name", nameJson name),
        ("args", .array (exprsJson args))])
  | .name text _ => form "Name" (.string text)
  | .makeArray type length elements _ =>
    form "MakeArray" (.object
      [("ty", type.toJson),
        ("length", match length with
          | some length => spanned length.nodeJson length.span
          | none => .null),
        ("elements", match elements with
          | some elements => .array (exprsJson elements)
          | none => .null)])
  | .index target index _ =>
    form "Index" (.object
      [("target", spanned target.nodeJson target.span),
        ("index", spanned index.nodeJson index.span)])

def exprsJson : List Expr → List Json
  | [] => []
  | expr :: exprs => spanned expr.nodeJson expr.span :: exprsJson exprs

end

/-- An expression with its span. -/
def Expr.toJson (expr : Expr) : Json :=
  spanned expr.nodeJson expr.span

/-- A variable declaration. -/
def VarDecl.toJson (decl : VarDecl) : Json :=
  .object
    [("name", nameJson decl.name), ("ty", optional TypeClause.toJson decl.type),
      ("init", optional Expr.toJson decl.initializer), ("span", decl.span.toJson)]

mutual

def Stmt.nodeJson : Stmt → Json
  | .declaration decl => form "Declaration" decl.toJson
  | .ret value _ => form "Return" (optional Expr.toJson value)
  | .whileLoop condition body _ =>
    form "While" (.object
      [("cond", condition.toJson), ("body", spanned body.nodeJson body.span)])
  | .forLoop initial condition action body _ =>
    form "For" (.object
      [("init", spanned initial.nodeJson initial.span), ("cond", condition.toJson),
        ("action", spanned action.nodeJson action.span),
        ("body", spanned body.nodeJson body.span)])
  | .fromTo iterator lower upper body _ =>
    form "FromTo" (.object
      [("iterator", nameJson iterator), ("lower", lower.toJson), ("upper", upper.toJson),
        ("body", spanned body.nodeJson body.span)])
  | .loop count body _ =>
    form "Loop" (.object [("count", count.toJson), ("body", spanned body.nodeJson body.span)])
  | .breakLoop _ => .string "Break"
  | .continueLoop _ => .string "Continue"
  | .block stmts _ => form "Block" (.array (stmtsJson stmts))
  | .expr value => form "Expr" value.nodeJson
  | .ifElse condition thenBranch elseBranch _ =>
    form "If" (.object
      [("cond", condition.toJson),
        ("then_branch", spanned thenBranch.nodeJson thenBranch.span),
        ("else_branch", match elseBranch with
          | some elseBranch => spanned elseBranch.nodeJson elseBranch.span
          | none => .null)])

def stmtsJson : List Stmt → List Json
  | [] => []
  | stmt :: stmts => spanned stmt.nodeJson stmt.span :: stmtsJson stmts

end

def Param.toJson (param : Param) : Json :=
  .object [("name", nameJson param.name), ("ty", param.type.toJson)]

def FunctionDecl.toJson (decl : FunctionDecl) : Json :=
  .object
    [("name", nameJson decl.name), ("params", .array (decl.params.map Param.toJson)),
      ("ret_ty", optional TypeClause.toJson decl.returnType),
      ("body", spanned decl.body.nodeJson decl.body.span), ("span", decl.span.toJson)]

def Member.toJson : Member → Json
  | .package name => form "Package" (nameJson name)
  | .load loaded included =>
    form "Load" (.object [("package", nameJson loaded), ("include", .bool included)])
  | .function decl => form "Function" decl.toJson
  | .global decl => form "Global" decl.toJson

/-- A source file. -/
def Program.toJson (program : Program) : Json :=
  .object [("members", .array (program.members.map Member.toJson))]

end Syntax

end Parcel
