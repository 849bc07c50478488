import Parcel.Proofs.Initialization

/-!
# Moments of a run

A run consists of activities that start others: a call runs code, code runs statements, statements
and expressions evaluate expressions, and expressions make calls. A moment of a run is one at which
an activity starts.
-/

namespace Parcel

open Code

/-- The expressions that are evaluated for an expression, in order. -/
def Code.Expr.operands : Expr → List Expr
  | .literal _ _ | .name _ _ | .unresolved _ => []
  | .paren e _ | .unary _ e _ _ | .conversion e _ _ | .makeLength e _ _ => [e]
  | .assign (.index target place _ _) value _ => [target, place, value]
  | .assign _ value _ => [value]
  | .binary left _ right _ _ => [left, right]
  | .index target place _ _ => [target, place]
  | .call _ arguments _ | .makeElements arguments _ _ => arguments
  | .methodCall _ receiver arguments _ => receiver :: arguments

/-- What a machine does. -/
inductive Activity where
  /-- A run from its start, with an entry function. -/
  | entry (f : FunctionSymbol)
  /-- Giving a variable of a package its default value. -/
  | reset (v : Var)
  /-- Running the declarations of a group. -/
  | group (group : GlobalGroup)
  | call (f : FunctionSymbol) (arguments : List Value) (receiver : Option Value)
  /-- Running code in the innermost frame, from its position on. -/
  | code (code : Array Stmt)
  | stmt (stmt : Stmt)
  | expr (e : Expr)

namespace Activity

/-- Does it; what it gives, if it gives anything, is a value. -/
def run (m : Machine) (fuel : Nat) : Activity → Exec (Option Value)
  | entry f => do
    let value ← runEntry m fuel f
    return some value
  | reset v => do
    setDefault m v
    return none
  | group g => do
    runGroup m fuel g
    return none
  | call f arguments receiver => do
    let value ← Parcel.call m fuel f arguments receiver
    return some value
  | code body => do
    runCode m fuel body
    return none
  | stmt part => do
    let _ ← execute m (Parcel.call m fuel) part
    return none
  | expr e => do
    let value ← eval m (Parcel.call m fuel) e
    return some value

/-- The type of what it gives. -/
def type? : Activity → Option Ty
  | entry f | call f _ _ => some f.returnType
  | expr e => some e.type
  | reset _ | group _ | code _ | stmt _ => none

end Activity

/-- An activity starts in a state, with so much fuel. -/
structure Moment where
  fuel : Nat
  activity : Activity
  state : State

/-- How the activity ends. -/
def Moment.ending (m : Machine) (moment : Moment) : Exec.Result (Option Value) :=
  moment.activity.run m moment.fuel moment.state

/-- What is started in the course of an activity. The right operand of a logical operator is counted
also where the left one decides. -/
inductive Starts (m : Machine) : Moment → Moment → Prop
  | reset {fuel f s t before after v} :
    m.program.globals.flatMap declaredVars = before ++ v :: after →
    before.forM (setDefault m) s = .ok () t → Starts m ⟨fuel, .entry f, s⟩ ⟨fuel, .reset v, t⟩
  | group {fuel f s s₁ t before after g} : initSchedule m f.package = before ++ g :: after →
    (m.program.globals.flatMap declaredVars).forM (setDefault m) s = .ok () s₁ →
    before.forM (runGroup m fuel) s₁ = .ok () t → Starts m ⟨fuel, .entry f, s⟩ ⟨fuel, .group g, t⟩
  | entry {fuel f s s₁ t arguments} : runGlobals m fuel f.package s = .ok () s₁ →
    defaultArguments m f s₁ = .ok arguments t →
    Starts m ⟨fuel, .entry f, s⟩ ⟨fuel, .call f arguments none, t⟩
  | declarations {fuel g s} :
    Starts m ⟨fuel, .group g, s⟩ ⟨fuel, .code g.stmts.toArray, s.onStack (·.push
      (Frame.enter ("<globals> " ++ g.package) g.file g.stmts.toArray [] .void))⟩
  | body {fuel f arguments receiver file code result s t} : f.kind = .interpreted →
    s.stack.depth < m.mode.maxCallDepth → codeOf m.program f = .ok (file, code) →
    Exec.onHeap (·.default m.catalog f.returnType) s = .ok result t →
    Starts m ⟨fuel, .call f arguments receiver, s⟩ ⟨fuel, .code code, t.onStack (·.push
      (Frame.enter f.qualifiedName file code (bindParams f.params arguments) result))⟩
  | stmt {fuel code stmt frame s} : s.stack.top? = some frame → frame.returned = false →
    code[frame.position]? = some stmt → Starts m ⟨fuel + 1, .code code, s⟩ ⟨fuel, .stmt stmt, s⟩
  | next {fuel code stmt frame jumped s t} : s.stack.top? = some frame → frame.returned = false →
    code[frame.position]? = some stmt → execute m (call m fuel) stmt s = .ok jumped t →
    Starts m ⟨fuel + 1, .code code, s⟩ ⟨fuel, .code code, t.onStack (·.modifyTop fun top =>
      { top with position := jumped.getD (frame.position + 1) })⟩
  | expr {fuel stmt e s} : e ∈ stmt.ownExprs → Starts m ⟨fuel, .stmt stmt, s⟩ ⟨fuel, .expr e, s⟩
  | operand {fuel e operand before after values s t} : e.operands = before ++ operand :: after →
    evalAll m (call m fuel) before s = .ok values t →
    Starts m ⟨fuel, .expr e, s⟩ ⟨fuel, .expr operand, t⟩
  | function {fuel f arguments span values s t} :
    evalAll m (call m fuel) arguments s = .ok values t →
    Starts m ⟨fuel, .expr (.call f arguments span), s⟩ ⟨fuel, .call f values none, t⟩
  | method {fuel f receiver arguments span value values s s₁ t} :
    eval m (call m fuel) receiver s = .ok value s₁ →
    evalAll m (call m fuel) arguments s₁ = .ok values t →
    Starts m ⟨fuel, .expr (.methodCall f receiver arguments span), s⟩
      ⟨fuel, .call f values (some value), t⟩

/-- The moments of a run with so much fuel, from the start of the run on. -/
def Machine.Reaches (m : Machine) (fuel : Nat) (entry : FunctionSymbol) (sink : Sink) :
    Moment → Prop :=
  Relation.ReflTransGen (Starts m) ⟨fuel, .entry entry, State.initial sink⟩

end Parcel
