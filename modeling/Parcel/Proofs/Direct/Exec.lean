import Parcel.Machine.Run
import Parcel.Proofs.Code.Scoped

/-!
# Direct execution

Structured statements can be run as they stand, without labels and positions. A statement ends
normally, with a jump to a label around it, or with the end of the call. A loop takes up the jumps
to its own labels and passes on all others. Where a scope ends normally its variables are deleted; a
jump out of it leaves them where they are.
-/

namespace Parcel

open Code

/-- How a statement ends. -/
inductive Flow where
  | normal
  | jump (label : Label)
  | returned
  deriving DecidableEq

namespace Exec

/-- One action after another one that ends normally. -/
def andThen (first second : Exec Flow) : Exec Flow := do
  match ← first with
  | .normal => second
  | .jump label => return .jump label
  | .returned => return .returned

/-- Jumps to a label end with the action. -/
def catching (label : Label) (action : Exec Flow) : Exec Flow := do
  match ← action with
  | .jump target => return if target = label then .normal else .jump target
  | .normal => return .normal
  | .returned => return .returned

/-- Takes a local variable away. -/
def forget (v : Var) : Exec Unit :=
  modifyFrame fun frame => { frame with locals := frame.locals.erase v.id }

/-- The variables that an action declares are taken away at its end. -/
def scope (vars : List Var) (action : Exec Flow) : Exec Flow :=
  andThen action do
    vars.reverse.forM forget
    return .normal

/-- Repeats an action as long as a test holds, for a number of rounds at most. -/
def rounds (test : Exec Bool) (round : Exec Flow) : Nat → Exec Flow
  | 0 => throw .outOfFuel
  | fuel + 1 => do
    if ← test then andThen round (rounds test round fuel) else return .normal

end Exec

open Exec

def holds (m : Machine) (invoke : Invoke) (condition : Expr) : Exec Bool := do
  let value ← eval m invoke condition
  Exec.ofExcept value.asBool

/-- Compares an iterator with its goal; the spans are those of the bounds. -/
def comparison (m : Machine) (iterator : Var) (goal : Value) (lower upper : Span) : Exec Value :=
  placing (lower.merge upper) do
    let current ← placing lower (loadVar iterator)
    orDefault m (Value.binary .ne current goal) .bool (lower.merge upper)

/-- Whether an iterator has not reached its goal. -/
def differs (m : Machine) (iterator : Var) (goal : Value) (lower upper : Span) : Exec Bool := do
  let value ← comparison m iterator goal lower upper
  Exec.ofExcept value.asBool

/-- Moves an iterator one step toward its goal. -/
def advance (iterator : Var) (goal : Value) : Exec Unit := do
  let current ← loadVar iterator
  let current ← Exec.ofExcept current.asInteger
  let goal ← Exec.ofExcept goal.asInteger
  let step : Value := .integer (Word.wrap .long (stepToward current goal))
  let heap := (← get).heap
  let value ← Exec.ofExcept (heap.convert iterator.type step)
  storeVar iterator value

/-- A loop whose iterator moves from one bound toward the other. The upper bound is evaluated first,
and once. -/
def counting (m : Machine) (invoke : Invoke) (fuel : Nat) (iterator : Var)
    (lower upper : Expr) (own : List Var) (body : Exec Flow) (labels : LoopLabels) :
    Exec Flow := do
  let goal ← eval m invoke upper
  let _ ← execute m invoke (.declare iterator (some lower))
  let round := scope own (andThen (catching labels.onContinue body) do
    advance iterator goal
    return .normal)
  scope [iterator]
    (catching labels.onBreak (rounds (differs m iterator goal lower.span upper.span) round fuel))

mutual

/-- The direct execution of a statement; loops have a number of rounds at most. -/
def Code.Stmt.exec (m : Machine) (invoke : Invoke) (fuel : Nat) : Stmt → Exec Flow
  | .block stmts => scope (stmts.flatMap Stmt.own) (execAll m invoke fuel stmts)
  | .ifElse condition branch none => scope branch.own do
    if ← holds m invoke condition then branch.exec m invoke fuel else return .normal
  | .ifElse condition first (some second) => scope (first.own ++ second.own) do
    if ← holds m invoke condition then first.exec m invoke fuel else second.exec m invoke fuel
  | .whileLoop condition body labels =>
    let round := catching labels.onContinue (body.exec m invoke fuel)
    scope body.own (catching labels.onBreak (rounds (holds m invoke condition) round fuel))
  | .forLoop initial condition action body labels =>
    -- `continue` leads to the action, and a round is one scope
    let round := scope (body.own ++ action.own)
      (andThen (catching labels.onContinue (body.exec m invoke fuel)) (action.exec m invoke fuel))
    scope initial.own (andThen (initial.exec m invoke fuel)
      (catching labels.onBreak (rounds (holds m invoke condition) round fuel)))
  | .fromTo iterator lower upper body labels =>
    counting m invoke fuel iterator lower upper body.own (body.exec m invoke fuel) labels
  | .loop iterator count body labels =>
    counting m invoke fuel iterator (.int 0 count.span) count body.own (body.exec m invoke fuel)
      labels
  | .goto label => return .jump label
  | .ret value => do
    let _ ← execute m invoke (.ret value)
    return .returned
  | .declare v initializer => do
    let _ ← execute m invoke (.declare v initializer)
    return .normal
  | .expr value => do
    let _ ← execute m invoke (.expr value)
    return .normal
  | .label _ | .gotoIf _ _ | .delete _ | .approach _ _ => return .normal

/-- The direct execution of statements, one after the other. -/
def execAll (m : Machine) (invoke : Invoke) (fuel : Nat) : List Stmt → Exec Flow
  | [] => return .normal
  | stmt :: stmts => andThen (stmt.exec m invoke fuel) (execAll m invoke fuel stmts)

end

/-! ### Calls -/

/-- The structured body of a function with the file that it comes from. -/
def treeOf (program : Program) (f : FunctionSymbol) :
    Except FaultCause (Option Nat × Stmt) :=
  match program.function? f.id with
  | some ⟨_, file, .structured body⟩ => .ok (file, body)
  | some ⟨_, _, .lowered _⟩ => .error (.unlowered f.qualifiedName)
  | none => .error (.unresolvedFunction f.qualifiedName)

/-- A call, where `run` executes the body in the innermost frame. -/
def callTreeWith (m : Machine) (run : Stmt → Exec Unit) (f : FunctionSymbol)
    (arguments : List Value) (receiver : Option Value) : Exec Value :=
  match f.kind with
  | .native native => native.invoke receiver arguments
  | .interpreted => do
    if m.mode.maxCallDepth ≤ (← get).stack.depth then
      Exec.fail (.stackOverflow m.mode.maxCallDepth)
    else
      let (file, body) ← Exec.ofExcept (treeOf m.program f)
      let result ← Exec.onHeap (·.default m.catalog f.returnType)
      let frame := Frame.enter f.qualifiedName file #[] (bindParams f.params arguments) result
      let frame ← withFrame frame (run body)
      return (frame.map (·.result)).getD .void

/-- Executes a body directly, with so much fuel for the calls in it and the rounds of its loops. -/
def runTree (m : Machine) : Nat → Stmt → Exec Unit
  | 0, _ => throw .outOfFuel
  | fuel + 1, body => do
    let _ ← body.exec m (callTreeWith m (runTree m fuel)) fuel

/-- A call whose body is executed directly, with so much fuel. -/
def callTree (m : Machine) (fuel : Nat) : Invoke :=
  callTreeWith m (runTree m fuel)

end Parcel
