import Parcel.Code.Flatten

/-!
# Lowering

Loops and branches become labels and jumps. A `for` is a `while` whose body ends with the action;
`continue` lands before the action. A counting loop keeps its upper bound in a hidden variable and
moves its iterator toward it until the two are equal. What results is flattened.
-/

namespace Parcel.Code

/-- Computations that take fresh ids. -/
abbrev Fresh := StateM Ids

def freshLabel : Fresh Label :=
  modifyGet Ids.freshLabel

def freshLocal (name : String) (type : Ty) : Fresh Var :=
  modifyGet fun ids => ids.freshVar name type .local

/-- The name of the hidden upper bound of a counting loop. -/
def boundName : String := "__bound"

/-- A loop that tests its condition before each round; `start` is where a round begins. -/
def whileCode (start : Label) (condition : Expr) (body : Stmt) (labels : LoopLabels) : Stmt :=
  .block
    [.goto labels.onContinue, .label start, body, .label labels.onContinue,
      .gotoIf condition start, .label labels.onBreak]

def declared? : Stmt → Option Var
  | .declare var _ => some var
  | _ => none

/-- A loop with an initial statement and an action after each round. `test` is where the condition
is tested; the variable of the initial statement is deleted at the end. -/
def forCode (test start : Label) (initial : Stmt) (condition : Expr) (action body : Stmt)
    (labels : LoopLabels) (declared : Option Var) : Stmt :=
  let rounds := whileCode start condition
    (.block [body, .label labels.onContinue, action]) ⟨labels.onBreak, test⟩
  .block ([initial, rounds] ++ (declared.map Stmt.delete).toList)

/-- A loop that moves its iterator from one bound toward the other. The upper bound is evaluated
first, and once. -/
def countingCode (bound : Var) (test start : Label) (iterator : Var) (lower upper : Expr)
    (body : Stmt) (labels : LoopLabels) : Stmt :=
  let condition := Expr.binary (.name iterator lower.span) .ne (.name bound upper.span) .bool
    (lower.span.merge upper.span)
  .block
    [.declare bound (some upper),
      forCode test start (.declare iterator (some lower)) condition (.approach iterator bound) body
        labels (some iterator),
      .delete bound]

def ifCode (inner done : Label) (condition : Expr) (thenBranch : Stmt) : Stmt :=
  .block [.gotoIf condition inner, .goto done, .label inner, thenBranch, .label done]

def ifElseCode (inner otherwise done : Label) (condition : Expr) (thenBranch elseBranch : Stmt) :
    Stmt :=
  .block
    [.gotoIf condition inner, .goto otherwise, .label inner, thenBranch, .goto done,
      .label otherwise, elseBranch, .label done]

mutual

/-- A statement in which loops and branches are replaced by jumps. -/
def Stmt.lower : Stmt → Fresh Stmt
  | .block stmts => return .block (← lowerAll stmts)
  | .ifElse condition thenBranch none => do
    let inner ← freshLabel
    let done ← freshLabel
    let thenBranch ← thenBranch.lower
    return ifCode inner done condition thenBranch
  | .ifElse condition thenBranch (some elseBranch) => do
    let inner ← freshLabel
    let otherwise ← freshLabel
    let done ← freshLabel
    let thenBranch ← thenBranch.lower
    let elseBranch ← elseBranch.lower
    return ifElseCode inner otherwise done condition thenBranch elseBranch
  | .whileLoop condition body labels => do
    let start ← freshLabel
    let body ← body.lower
    return whileCode start condition body labels
  | .forLoop initial condition action body labels => do
    let test ← freshLabel
    let declared := declared? initial
    let initial ← initial.lower
    let start ← freshLabel
    let body ← body.lower
    let action ← action.lower
    return forCode test start initial condition action body labels declared
  | .fromTo iterator lower upper body labels => do
    let bound ← freshLocal boundName .int
    let test ← freshLabel
    let start ← freshLabel
    let body ← body.lower
    return countingCode bound test start iterator lower upper body labels
  | .loop iterator count body labels => do
    let bound ← freshLocal boundName .int
    let test ← freshLabel
    let start ← freshLabel
    let body ← body.lower
    return countingCode bound test start iterator (.int 0 count.span) count body labels
  | .declare var initializer => return .declare var initializer
  | .ret value => return .ret value
  | .expr value => return .expr value
  | .label label => return .label label
  | .goto label => return .goto label
  | .gotoIf condition label => return .gotoIf condition label
  | .delete var => return .delete var
  | .approach var target => return .approach var target

/-- Statements in which loops and branches are replaced by jumps, in order. -/
def lowerAll : List Stmt → Fresh (List Stmt)
  | [] => return []
  | stmt :: stmts => do
    let stmt ← stmt.lower
    let stmts ← lowerAll stmts
    return stmt :: stmts

end

/-- A body as lowered code; a body that is lowered already stays as it is. -/
def Body.lower : Body → Fresh Body
  | .structured body => do
    let body ← body.lower
    return .lowered (flatten body).toArray
  | .lowered code => return .lowered code

def Function.lower (f : Function) : Fresh Function := do
  let body ← f.body.lower
  return { f with body }

/-- A program with all its functions lowered, in the order of binding. -/
def Program.lower (p : Program) : Fresh Program := do
  let functions ← p.functions.mapM Function.lower
  return { p with functions }

end Parcel.Code
