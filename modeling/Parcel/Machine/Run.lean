import Parcel.Machine.Eval

/-!
# Runs of programs

A call pushes a frame and runs the code of the function statement by statement. Before the entry
function is called, the variables of packages get their default values and then their initial ones,
those of a package after those of the packages that it loads.
-/

namespace Parcel

/-! ### Calls -/

/-- The value of `f`, computed on a stack of its own, so that deep recursion has room. -/
def onFreshStack {α : Type} (f : Unit → α) : α :=
  (Task.spawn f .dedicated).get

@[simp] theorem onFreshStack_eq {α : Type} (f : Unit → α) : onFreshStack f = f () := rfl

def callsPerStack : Nat := 256

/-- Runs a computation at a depth of calls. -/
def atDepth {α : Type} (depth : Nat) (action : Exec α) : Exec α := fun s =>
  if depth % callsPerStack = callsPerStack - 1 then onFreshStack fun _ => action s
  else action s

@[simp] theorem atDepth_eq {α : Type} (depth : Nat) (action : Exec α) :
    atDepth depth action = action := by
  funext s
  simp [atDepth]

/-- Runs a computation in a frame, which is taken away at the end in any case. -/
def withFrame (frame : Frame) (action : Exec Unit) : Exec (Option Frame) := fun s =>
  match action (s.onStack (·.push frame)) with
  | .ok _ s => .ok s.stack.top? (s.onStack Stack.pop)
  | .error halt s => .error halt (s.onStack Stack.pop)

def bindParams (params : List Var) (arguments : List Value) : Store :=
  (params.zip arguments).foldl (fun store (v, value) => store.set v.id value) []

/-- The lowered code of a function with the file that it comes from. -/
def codeOf (program : Code.Program) (f : FunctionSymbol) :
    Except FaultCause (Option Nat × Array Code.Stmt) :=
  match program.function? f.id with
  | some ⟨_, file, .lowered code⟩ => .ok (file, code)
  | some ⟨_, _, .structured _⟩ => .error (.unlowered f.qualifiedName)
  | none => .error (.unresolvedFunction f.qualifiedName)

/-- A call, where `run` runs the code of the innermost frame. -/
def callWith (m : Machine) (run : Array Code.Stmt → Exec Unit) (f : FunctionSymbol)
    (arguments : List Value) (receiver : Option Value) : Exec Value :=
  match f.kind with
  | .native native => native.invoke receiver arguments
  | .interpreted => do
    let depth := (← get).stack.depth
    if m.mode.maxCallDepth ≤ depth then
      Exec.fail (.stackOverflow m.mode.maxCallDepth)
    else
      let (file, code) ← Exec.ofExcept (codeOf m.program f)
      let result ← Exec.onHeap (·.default m.catalog f.returnType)
      let frame := Frame.enter f.qualifiedName file code (bindParams f.params arguments) result
      let frame ← withFrame frame (atDepth depth (run code))
      return (frame.map (·.result)).getD .void

/-- Runs the code of the innermost frame until it returns or ends. Every statement uses up one unit
of fuel, and so does every statement of a call. -/
def runCode (m : Machine) : Nat → Array Code.Stmt → Exec Unit
  | 0, _ => throw .outOfFuel
  | fuel + 1, code => do
    let some frame := (← get).stack.top? | return
    if frame.returned then return
    let some stmt := code[frame.position]? | return
    let next ← execute m (callWith m (runCode m fuel)) stmt
    let position := next.getD (frame.position + 1)
    Exec.modifyFrame fun frame => { frame with position }
    runCode m fuel code

def call (m : Machine) (fuel : Nat) : Invoke :=
  callWith m (runCode m fuel)

/-! ### Variables of packages -/

/-- The packages seen and those listed on the way through the packages loaded. -/
structure LoadWalk where
  seen : List String
  listed : List String

/-- Lists a package after those that it loads, unless it was seen before. -/
def LoadWalk.visit (loads : String → List String) : Nat → LoadWalk → String → LoadWalk
  | 0, walk, _ => walk
  | depth + 1, walk, package =>
    if package ∈ walk.seen then walk
    else
      let walk := (loads package).foldl (LoadWalk.visit loads depth)
        ⟨package :: walk.seen, walk.listed⟩
      ⟨walk.seen, walk.listed ++ [package]⟩

def Catalog.loadsOf (c : Catalog) (package : String) : List String :=
  ((c.package? package).map (·.loads)).getD []

/-- The packages in the order of their initialization: those that the entry package reaches, then
those that declare variables. A path through packages that are not yet seen is no longer than there
are packages, and one more that may be unknown. -/
def initOrder (c : Catalog) (entry : String) (groups : List Code.GlobalGroup) : List String :=
  ((entry :: groups.map (·.package)).foldl
    (LoadWalk.visit c.loadsOf (c.packages.length + 1)) ⟨[], []⟩).listed

def declaredVars (group : Code.GlobalGroup) : List Var :=
  group.stmts.filterMap fun
    | .declare v _ => some v
    | _ => none

/-- Gives a variable of a package its default value. -/
def setDefault (m : Machine) (v : Var) : Exec Unit := do
  let value ← Exec.onHeap (·.default m.catalog v.type)
  modify (State.onGlobals (·.set v.id value))

def runGroup (m : Machine) (fuel : Nat) (group : Code.GlobalGroup) : Exec Unit := do
  let code := group.stmts.toArray
  let frame := Frame.enter ("<globals> " ++ group.package) group.file code [] .void
  let _ ← withFrame frame (runCode m fuel code)

/-- Initializes the variables of all packages. -/
def runGlobals (m : Machine) (fuel : Nat) (entry : String) : Exec Unit := do
  let groups := m.program.globals
  (groups.flatMap declaredVars).forM (setDefault m)
  (initOrder m.catalog entry groups).forM fun package =>
    (groups.filter (·.package = package)).forM (runGroup m fuel)

/-! ### Runs -/

/-- How a run ends. -/
inductive Outcome where
  /-- The entry function returns, or the program exits; then there is no value. -/
  | finished (value : Value) (exitCode : Int)
  | failed (fault : Fault)
  /-- The number of steps that was allowed is used up. -/
  | unfinished

def defaultArguments (m : Machine) (f : FunctionSymbol) : Exec (List Value) :=
  f.params.mapM fun v => Exec.onHeap (·.default m.catalog v.type)

/-- Initializes the variables of packages and calls the entry function with default values. -/
def runEntry (m : Machine) (fuel : Nat) (entry : FunctionSymbol) : Exec Value := do
  runGlobals m fuel entry.package
  let arguments ← defaultArguments m entry
  call m fuel entry arguments none

/-- The outcome of a computation that a run consists of. -/
def outcomeOf : Exec.Result Value → Outcome × State
  | .ok value s => (.finished value 0, s)
  | .error (.fault ⟨.exit code, _⟩) s => (.finished .void code, s)
  | .error (.fault f) s => (.failed f, s)
  | .error .outOfFuel s => (.unfinished, s)

def runFor (m : Machine) (fuel : Nat) (entry : FunctionSymbol) (sink : Sink) : Outcome × State :=
  outcomeOf (runEntry m fuel entry (State.initial sink))

/-- More steps than any computer takes. -/
def ampleFuel : Nat := Nat.pow 2 62

def run (m : Machine) (entry : FunctionSymbol) (sink : Sink) : Outcome × State :=
  runFor m ampleFuel entry sink

end Parcel
