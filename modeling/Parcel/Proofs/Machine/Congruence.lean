import Parcel.Proofs.Initialization

/-!
# Machines side by side

Two machines run the same code, up to ids of variables, functions and labels. A relation between
their computations that the smallest steps have, and that passes from parts to the whole, holds of
whole runs. It is shown here once, whatever the relation says: that results are equal, that one run
is cut short, or that frames differ in ids alone.
-/

namespace Parcel

open Code List

/-- The declarations with new ids. -/
def Code.GlobalGroup.rename (ρ : Renaming) (group : GlobalGroup) : GlobalGroup :=
  { group with stmts := group.stmts.map (·.rename ρ) }

/-! ### What both machines see -/

/-- Where the innermost frame goes on, unless its call has returned. -/
def State.cursor? (s : State) : Option Nat :=
  s.stack.top?.bind fun frame => if frame.returned then none else some frame.position

/-- The states show the same to what reads no variables and looks up no labels. -/
structure SameView (s t : State) : Prop where
  heap : s.heap = t.heap
  file : s.file = t.file
  depth : s.stack.depth = t.stack.depth
  function : s.stack.top?.map (·.function) = t.stack.top?.map (·.function)
  cursor : s.cursor? = t.cursor?

lemma SameView.refl (s : State) : SameView s s :=
  ⟨rfl, rfl, rfl, rfl, rfl⟩

def inFrame (frame : Frame) (body : Exec Unit) : Exec Value := do
  let frame ← withFrame frame body
  return (frame.map (·.result)).getD .void

lemma inFrame_apply (frame : Frame) (body : Exec Unit) (s : State) :
    inFrame frame body s = match body (s.onStack (·.push frame)) with
      | .ok _ s => .ok ((s.stack.top?.map (·.result)).getD .void) (s.onStack Stack.pop)
      | .error halt s => .error halt (s.onStack Stack.pop) := by
  show EStateM.bind (withFrame frame body) _ s = _
  unfold EStateM.bind withFrame
  cases body (s.onStack (·.push frame)) <;> rfl

/-- A call of a function that is not native runs its code in a frame of its own, unless too many
calls are unfinished or there is no code. -/
lemma call_interpreted {f : FunctionSymbol} (hkind : f.kind = .interpreted) (m : Machine) (fuel : Nat)
    (arguments : List Value) (receiver : Option Value) (s : State) :
    call m fuel f arguments receiver s =
      if m.mode.maxCallDepth ≤ s.stack.depth then
        .error (.fault ⟨.stackOverflow m.mode.maxCallDepth, none⟩) s
      else match codeOf m.program f with
        | .error cause => .error (.fault ⟨cause, none⟩) s
        | .ok (file, code) => inFrame (Frame.enter f.qualifiedName file code
            (bindParams f.params arguments) (s.heap.default m.catalog f.returnType).1)
            (runCode m fuel code) { s with heap := (s.heap.default m.catalog f.returnType).2 } := by
  simp only [call, callWith, hkind, atDepth_eq]
  refine (exec_bind_ok (get_run s) _).trans ?_
  split
  · rfl
  · cases codeOf m.program f <;> rfl

lemma runCode_succ (m : Machine) (fuel : Nat) (code : Array Stmt) :
    runCode m (fuel + 1) code = (get >>= fun s =>
      match s.cursor? with
      | none => pure ()
      | some position =>
        match code[position]? with
        | none => pure ()
        | some stmt => do
          let next ← execute m (callWith m (runCode m fuel)) stmt
          Exec.modifyFrame fun frame => { frame with position := next.getD (position + 1) }
          runCode m fuel code) := by
  rw [runCode]
  congr 1
  funext s
  unfold State.cursor?
  cases s.stack.top? with
  | none => rfl
  | some frame =>
    cases hreturned : frame.returned with
    | true => simp only [hreturned, Option.bind_some, if_true]
    | false =>
      simp only [hreturned, Option.bind_some, if_false, Bool.false_eq_true]
      cases code[frame.position]? <;> rfl

lemma runGroup_eq (m : Machine) (fuel : Nat) (group : GlobalGroup) :
    runGroup m fuel group = (inFrame (Frame.enter ("<globals> " ++ group.package) group.file
      group.stmts.toArray (bindParams [] []) .void) (runCode m fuel group.stmts.toArray) >>= fun _ =>
        pure ()) := by
  rw [inFrame, bind_assoc]
  rfl

/-! ### Congruences -/

/-- A relation between the computations of two machines, the second of which has other ids: it holds
of the smallest steps, and of what is made of parts of which it holds. -/
structure Congruence (ρ : Renaming) (m m' : Machine) (P : ∀ {α : Type}, Exec α → Exec α → Prop) :
    Prop where
  catalog : m'.catalog = m.catalog
  code : ∀ f : FunctionSymbol, codeOf m'.program (f.rename ρ) =
    (codeOf m.program f).map fun found => (found.1, found.2.map (·.rename ρ))
  globals : m'.program.globals = m.program.globals.map (·.rename ρ)
  pure : ∀ {α : Type} (a : α), P (pure a) (pure a)
  halt : ∀ {α : Type} (halt : Halt), P (throw halt : Exec α) (throw halt)
  bind : ∀ {α β : Type} {c c' : Exec α} {next next' : α → Exec β}, P c c' →
    (∀ a, P (next a) (next' a)) → P (c >>= next) (c' >>= next')
  get : ∀ {α : Type} {next next' : State → Exec α},
    (∀ s t, SameView s t → P (next s) (next' t)) → P (get >>= next) (get >>= next')
  placing : ∀ {α : Type} {c c' : Exec α} (span : Span), P c c' →
    P (placing span c) (placing span c')
  onHeap : ∀ {α : Type} (f : Heap → α × Heap), P (Exec.onHeap f) (Exec.onHeap f)
  ask : ∀ transfer : Transfer, P (Exec.ask transfer) (Exec.ask transfer)
  setGlobal : ∀ (v : Var) (value : Value), P (modify (State.onGlobals (·.set v.id value)))
    (modify (State.onGlobals (·.set (v.rename ρ).id value)))
  loadVar : ∀ v : Var, P (loadVar v) (loadVar (v.rename ρ))
  storeVar : ∀ (v : Var) (value : Value), P (storeVar v value) (storeVar (v.rename ρ) value)
  delete : ∀ v : Var,
    P (Exec.modifyFrame fun frame => { frame with locals := frame.locals.erase v.id })
      (Exec.modifyFrame fun frame => { frame with locals := frame.locals.erase (v.rename ρ).id })
  /-- A change of a frame that leaves variables and labels alone. -/
  modifyFrame : ∀ change : Frame → Frame,
    (∀ (frame : Frame) (locals : Store) (labels : LabelPositions),
      change { frame with locals, labels } = { change frame with locals, labels }) →
    P (Exec.modifyFrame change) (Exec.modifyFrame change)
  jump : ∀ label : Label, P (jump label) (jump (label.rename ρ))
  recover : ∀ (cause : FaultCause) (span : Span) (placeholder : Value),
    P (recover m.mode cause span placeholder) (recover m'.mode cause span placeholder)
  limited : ∀ (depth : Nat) {c c' : Exec Value}, P c c' →
    P (if m.mode.maxCallDepth ≤ depth then Exec.fail (.stackOverflow m.mode.maxCallDepth) else c)
      (if m'.mode.maxCallDepth ≤ depth then Exec.fail (.stackOverflow m'.mode.maxCallDepth) else c')
  inFrame : ∀ (name : String) (file : Option Nat) (code : Array Stmt) (params : List Var)
    (arguments : List Value) (result : Value) {c c' : Exec Unit}, P c c' →
    P (inFrame (Frame.enter name file code (bindParams params arguments) result) c)
      (inFrame (Frame.enter name file (code.map (·.rename ρ))
        (bindParams (params.map (·.rename ρ)) arguments) result) c')

namespace Congruence

variable {ρ : Renaming} {m m' : Machine} {P : ∀ {α : Type}, Exec α → Exec α → Prop}
  (h : Congruence ρ m m' P)
include h

lemma fail {α : Type} (cause : FaultCause) : P (Exec.fail cause : Exec α) (Exec.fail cause) :=
  h.halt _

lemma ofExcept {α : Type} (result : Except FaultCause α) :
    P (Exec.ofExcept result) (Exec.ofExcept result) := by
  cases result with
  | ok a => exact h.pure a
  | error cause => exact h.fail cause

lemma forM {α β : Type} (l : List α) (f : α → β) {action : α → Exec Unit}
    {action' : β → Exec Unit} (haction : ∀ a, P (action a) (action' (f a))) :
    P (l.forM action) ((l.map f).forM action') := by
  induction l with
  | nil => exact h.pure _
  | cons a l ih => exact h.bind (haction a) fun _ => ih

lemma mapM {α β γ : Type} (l : List α) (f : α → γ) {action : α → Exec β} {action' : γ → Exec β}
    (haction : ∀ a, P (action a) (action' (f a))) : P (l.mapM action) ((l.map f).mapM action') := by
  induction l with
  | nil => exact h.pure _
  | cons a l ih =>
    rw [map_cons, mapM_cons, mapM_cons]
    exact h.bind (haction a) fun b => h.bind ih fun bs => h.pure (b :: bs)

/-! ### Expressions -/

lemma compatible : Compatible ρ m m' (fun _ => True) fun c c' => ∀ k, P c (c' k) where
  catalog := h.catalog
  pure a _ := h.pure a
  fail _ _ := h.fail _
  bind hc hnext k := h.bind (hc k) fun a => hnext a k
  get hnext k := h.get fun s t hst => hnext s t hst.heap k
  placing span hc k := h.placing span (hc k)
  onHeap f _ := h.onHeap f
  ask transfer _ := h.ask transfer
  loadVar _ _ := h.loadVar _
  storeVar value _ _ := h.storeVar _ value
  recover span placeholder _ _ := h.recover _ span placeholder

section Calls

variable {invoke invoke' : Invoke}
  (hinvoke : ∀ f arguments receiver,
    P (invoke f arguments receiver) (invoke' (f.rename ρ) arguments receiver))
include hinvoke

lemma bind_calls (f : FunctionSymbol) (es : List Expr) (receiver : Option Value)
    (hes : Nat → P (Parcel.evalAll m invoke es) (Parcel.evalAll m' invoke' (renameEach ρ es)))
    (k : Nat) : P (Parcel.evalAll m invoke es >>= (invoke f · receiver))
      (Parcel.evalAll m' invoke' (renameEach ρ es) >>= (invoke' (f.rename ρ) · receiver)) :=
  h.bind (hes k) fun values => hinvoke f values receiver

/-- **Expressions**, if it holds of calls. -/
theorem eval (e : Expr) : P (eval m invoke e) (eval m' invoke' (e.rename ρ)) := by
  have heval : ∀ _ : Nat, P (Parcel.eval m invoke e) (Parcel.eval m' invoke' (e.rename ρ)) :=
    h.compatible.eval (fun f es receiver _ => h.bind_calls hinvoke f es receiver) e fun _ _ => trivial
  exact heval 0

lemma evalAll (es : List Expr) : P (evalAll m invoke es) (evalAll m' invoke' (renameEach ρ es)) := by
  have heval : ∀ _ : Nat, P (Parcel.evalAll m invoke es)
      (Parcel.evalAll m' invoke' (renameEach ρ es)) :=
    h.compatible.evalAll (fun f es receiver _ => h.bind_calls hinvoke f es receiver) es
      fun _ _ => trivial
  exact heval 0

/-! ### Statements -/

/-- **Statements**, if it holds of calls. -/
theorem execute (stmt : Stmt) : P (execute m invoke stmt) (execute m' invoke' (stmt.rename ρ)) := by
  have heval := h.eval hinvoke
  have hstore (v : Var) (value : Value) := h.bind (h.storeVar v value) fun _ =>
    h.pure (none : Option Nat)
  have hgoto (label : Label) := h.bind (h.jump label) fun position => h.pure (some position)
  cases stmt with
  | declare v initializer =>
    cases initializer with
    | some e => exact h.bind (heval e) fun value => hstore v value
    | none =>
      refine h.bind ?_ fun value => hstore v value
      rw [h.catalog]
      exact h.onHeap _
  | ret value =>
    cases value with
    | some e =>
      exact h.bind (heval e) fun value => h.bind (h.modifyFrame _ fun _ _ _ => rfl) fun _ =>
        h.pure none
    | none => exact h.bind (h.modifyFrame _ fun _ _ _ => rfl) fun _ => h.pure none
  | expr e => exact h.bind (heval e) fun _ => h.pure none
  | label _ => exact h.pure none
  | goto label => exact hgoto label
  | gotoIf condition label =>
    refine h.bind (heval condition) fun value => h.bind (h.ofExcept _) fun condition => ?_
    cases condition with
    | true => exact hgoto label
    | false => exact h.pure none
  | delete v => exact h.bind (h.delete v) fun _ => h.pure none
  | approach v target =>
    refine h.bind (h.loadVar v) fun current => h.bind (h.ofExcept _) fun current =>
      h.bind (h.loadVar target) fun goal => h.bind (h.ofExcept _) fun goal => h.get fun s t hst => ?_
    rw [← hst.heap]
    exact h.bind (h.ofExcept _) fun value => hstore v value
  | ifElse condition first second =>
    cases second with
    | none | some =>
      refine h.get fun s t hst => ?_
      rw [← hst.function]
      exact h.fail _
  | whileLoop | forLoop | fromTo | loop | block =>
    refine h.get fun s t hst => ?_
    rw [← hst.function]
    exact h.fail _

end Calls

/-! ### Code and calls -/

lemma callWith {run run' : Array Stmt → Exec Unit}
    (hrun : ∀ code, P (run code) (run' (code.map (·.rename ρ)))) (f : FunctionSymbol)
    (arguments : List Value) (receiver : Option Value) :
    P (callWith m run f arguments receiver) (callWith m' run' (f.rename ρ) arguments receiver) := by
  have hkind : (f.rename ρ).kind = f.kind := rfl
  cases hcase : f.kind with
  | native native =>
    simp only [Parcel.callWith, hkind, hcase]
    exact h.compatible.native native receiver arguments 0
  | interpreted =>
    simp only [Parcel.callWith, hkind, hcase]
    refine h.get fun s t hst => ?_
    rw [← hst.depth]
    refine h.limited _ ?_
    rw [h.code, h.catalog]
    cases codeOf m.program f with
    | error cause => exact h.fail cause
    | ok found =>
      dsimp only [Except.map, Exec.ofExcept]
      rw [pure_bind, pure_bind]
      refine h.bind (h.onHeap _) fun result => ?_
      rw [atDepth_eq, atDepth_eq]
      exact h.inFrame _ found.1 found.2 f.params arguments result (hrun found.2)

/-- **Code**, step after step. -/
theorem runCode (fuel : Nat) (code : Array Stmt) :
    P (runCode m fuel code) (runCode m' fuel (code.map (·.rename ρ))) := by
  induction fuel generalizing code with
  | zero => exact h.halt _
  | succ fuel ih =>
    rw [runCode_succ, runCode_succ]
    refine h.get fun s t hst => ?_
    rw [← hst.cursor]
    cases s.cursor? with
    | none => exact h.pure ()
    | some position =>
      dsimp only
      rw [Array.getElem?_map]
      cases code[position]? with
      | none => exact h.pure ()
      | some stmt =>
        refine h.bind (h.execute (h.callWith ih) stmt) fun next => ?_
        exact h.bind (h.modifyFrame _ fun _ _ _ => rfl) fun _ => ih code

lemma call (fuel : Nat) (f : FunctionSymbol) (arguments : List Value) (receiver : Option Value) :
    P (call m fuel f arguments receiver) (call m' fuel (f.rename ρ) arguments receiver) :=
  h.callWith (h.runCode fuel) f arguments receiver

/-! ### Runs -/

lemma setDefault (v : Var) : P (setDefault m v) (setDefault m' (v.rename ρ)) := by
  refine h.bind ?_ fun value => h.setGlobal v value
  rw [h.catalog]
  exact h.onHeap _

lemma runGroup (fuel : Nat) (group : GlobalGroup) :
    P (runGroup m fuel group) (runGroup m' fuel (group.rename ρ)) := by
  rw [runGroup_eq, runGroup_eq]
  have hcode : (group.rename ρ).stmts.toArray = group.stmts.toArray.map (·.rename ρ) := by
    rw [map_toArray]
    rfl
  rw [hcode]
  exact h.bind (h.inFrame _ _ _ [] [] _ (h.runCode fuel _)) fun _ => h.pure ()

lemma initSchedule_eq (entry : String) :
    initSchedule m' entry = (initSchedule m entry).map (·.rename ρ) := by
  have horder : initOrder m'.catalog entry m'.program.globals =
      initOrder m.catalog entry m.program.globals := by
    rw [initOrder, initOrder, h.catalog, h.globals, map_map]
    rfl
  rw [initSchedule, initSchedule, horder, h.globals, map_flatMap]
  refine flatMap_congr fun package _ => ?_
  rw [filter_map]
  rfl

omit h in
lemma declaredVars_rename (group : GlobalGroup) :
    declaredVars (group.rename ρ) = (declaredVars group).map (·.rename ρ) := by
  rw [declaredVars, declaredVars, GlobalGroup.rename, filterMap_map, map_filterMap]
  refine filterMap_congr fun stmt _ => ?_
  cases stmt with
  | ifElse condition first second => cases second <;> rfl
  | _ => rfl

lemma runGlobals (fuel : Nat) (entry : String) :
    P (runGlobals m fuel entry) (runGlobals m' fuel entry) := by
  have hvars : m'.program.globals.flatMap declaredVars =
      (m.program.globals.flatMap declaredVars).map (·.rename ρ) := by
    rw [h.globals, flatMap_map, map_flatMap]
    exact flatMap_congr fun group _ => declaredVars_rename group
  rw [runGlobals_eq, runGlobals_eq, hvars, h.initSchedule_eq]
  exact h.bind (h.forM _ _ h.setDefault) fun _ => h.forM _ _ (h.runGroup fuel)

/-- **Whole runs.** -/
theorem runEntry (fuel : Nat) (entry : FunctionSymbol) :
    P (runEntry m fuel entry) (runEntry m' fuel (entry.rename ρ)) := by
  refine h.bind (h.runGlobals fuel entry.package) fun _ => h.bind ?_ fun arguments => ?_
  · refine h.mapM entry.params (·.rename ρ) fun v => ?_
    rw [h.catalog]
    exact h.onHeap _
  · exact h.call fuel entry arguments none

end Congruence

/-! ### Machines that differ in their mode -/

/-- The second state has the faults of the first one and `faults`, and what the first one has
written and maybe more. -/
structure Later (s t : State) (faults : List Fault) : Prop where
  recovered : t.recovered.toList = s.recovered.toList ++ faults
  written : ∃ bytes, t.sink.written = s.sink.written ++ bytes

namespace Later

variable {s t u : State}

lemma of_eq (hrecovered : t.recovered = s.recovered) (hsink : t.sink = s.sink) : Later s t [] where
  recovered := by rw [hrecovered, append_nil]
  written := ⟨.empty, by rw [hsink, ByteArray.append_empty]⟩

lemma refl (s : State) : Later s s [] := .of_eq rfl rfl

lemma trans {faults faults' : List Fault} (h : Later s t faults) (h' : Later t u faults') :
    Later s u (faults ++ faults') where
  recovered := by rw [h'.recovered, h.recovered, append_assoc]
  written := by
    obtain ⟨bytes, hbytes⟩ := h.written
    obtain ⟨bytes', hbytes'⟩ := h'.written
    exact ⟨bytes ++ bytes', by rw [hbytes', hbytes, ByteArray.append_assoc]⟩

end Later

def endState {α : Type} : Exec.Result α → State
  | .ok _ s => s
  | .error _ s => s

lemma endState_placing {α : Type} (span : Span) (c : Exec α) (s : State) :
    endState (placing span c s) = endState (c s) := by
  unfold placing
  split
  next hc => rw [hc]; rfl
  next => rfl

/-- Variables are read and written with nothing else to show for it. -/
lemma later_loadVar (v : Var) (s : State) : Later s (endState (loadVar v s)) [] := by
  cases h : s.value? v with
  | none =>
    rw [loadVar_none h]
    exact .refl s
  | some =>
    rw [loadVar_some h]
    exact .refl s

lemma later_storeVar (v : Var) (value : Value) (s : State) :
    Later s (endState (storeVar v value s)) [] := by
  cases h : s.holds v with
  | false =>
    rw [storeVar_not_holds h]
    exact .refl s
  | true =>
    rw [storeVar_holds h]
    unfold State.assign
    split
    · exact .of_eq rfl rfl
    · exact .of_eq rfl rfl

lemma later_jump (label : Label) (s : State) : Later s (endState (jump label s)) [] := by
  rw [jump, exec_bind_ok (get_run s)]
  cases s.stack.top?.bind (·.position? label) with
  | some position | none => exact .refl s

/-- Two machines that differ in their mode alone have the same ids, so most steps are the same in
both. A relation that holds of steps that recover from no fault, if they are the same, has to be
shown for the depth of calls and for the recovery from faults only, besides that it passes to the
whole. -/
lemma Congruence.ofMode {program : Program} {catalog : Catalog} {mode mode' : Mode}
    {P : ∀ {α : Type}, Exec α → Exec α → Prop}
    (hsame : ∀ {α : Type} {c : Exec α}, (∀ s, Later s (endState (c s)) []) → P c c)
    (hbind : ∀ {α β : Type} {c c' : Exec α} {next next' : α → Exec β}, P c c' →
      (∀ a, P (next a) (next' a)) → P (c >>= next) (c' >>= next'))
    (hget : ∀ {α : Type} {next next' : State → Exec α}, (∀ s, P (next s) (next' s)) →
      P (MonadState.get >>= next) (MonadState.get >>= next'))
    (hplacing : ∀ {α : Type} {c c' : Exec α} (span : Span), P c c' →
      P (Parcel.placing span c) (Parcel.placing span c'))
    (hframe : ∀ {c c' : Exec Unit} (frame : Frame), P c c' →
      P (withFrame frame c) (withFrame frame c'))
    (hrecover : ∀ (cause : FaultCause) (span : Span) (placeholder : Value),
      P (Parcel.recover mode cause span placeholder) (Parcel.recover mode' cause span placeholder))
    (hlimited : ∀ (depth : Nat) {c c' : Exec Value}, P c c' →
      P (if mode.maxCallDepth ≤ depth then Exec.fail (.stackOverflow mode.maxCallDepth) else c)
        (if mode'.maxCallDepth ≤ depth then Exec.fail (.stackOverflow mode'.maxCallDepth) else c')) :
    Congruence .refl ⟨program, catalog, mode⟩ ⟨program, catalog, mode'⟩ P where
  catalog := rfl
  code f := by
    have hstmts : (fun found : Option Nat × Array Stmt =>
        (found.1, found.2.map (·.rename .refl))) = id := by
      funext found
      simp only [Stmt.rename_refl, Array.map_id_fun', id]
    rw [FunctionSymbol.rename_refl, hstmts, Except.map_id, id]
  globals := by
    simp only [GlobalGroup.rename, Stmt.rename_refl, map_id']
  pure a := hsame fun s => .refl s
  halt e := hsame fun s => .refl s
  bind := hbind
  get h := hget fun s => h s s (.refl s)
  placing := hplacing
  onHeap f := hsame fun _ => .of_eq rfl rfl
  ask transfer := hsame fun s => ⟨(append_nil _).symm, _, rfl⟩
  setGlobal v value := hsame fun _ => .of_eq rfl rfl
  loadVar v := hsame (later_loadVar v)
  storeVar v value := hsame (later_storeVar v value)
  delete v := hsame fun _ => .of_eq rfl rfl
  modifyFrame change _ := hsame fun _ => .of_eq rfl rfl
  jump label := hsame (later_jump label)
  recover := hrecover
  limited := hlimited
  inFrame name file code params arguments result _ _ h := by
    simp only [Stmt.rename_refl, Var.rename_refl, Array.map_id_fun', map_id', id]
    exact hbind (hframe _ h) fun _ => hsame .refl

/-- What holds between the faults before a computation and those after it, if it holds where one
fault is added or none, and of one computation after the other. -/
lemma Congruence.ofRecovered {R : Array Fault → Array Fault → Prop} (hrefl : ∀ faults, R faults faults)
    (htrans : ∀ {a b c : Array Fault}, R a b → R b c → R a c)
    (hpush : ∀ faults (f : Fault), f.cause.isRecoverable = true → R faults (faults.push f))
    (m : Machine) : Congruence .refl m m fun c _ => ∀ s, R s.recovered (endState (c s)).recovered := by
  refine .ofMode (fun hsame s => ?same) (fun {_ _ c _ next _} hc hnext s => ?bind) (fun h s => h s s)
    (fun span h s => ?placing) (fun {c _} frame h s => ?frame)
    (fun cause span placeholder s => ?recover) (fun depth c _ h => ?limited)
  case same =>
    rw [Array.toList_inj.mp ((hsame s).recovered.trans (append_nil _))]
    exact hrefl _
  case bind =>
    have hs := hc s
    cases h : c s with
    | ok a t =>
      rw [exec_bind_ok h]
      rw [h] at hs
      exact htrans hs (hnext a t)
    | error =>
      rw [exec_bind_error h]
      rwa [h] at hs
  case placing =>
    rw [endState_placing]
    exact h s
  case frame =>
    have hs := h (s.onStack (·.push frame))
    unfold withFrame
    cases hc : c (s.onStack (·.push frame)) with
    | ok _ t | error _ t =>
      rw [hc] at hs
      exact hs
  case recover =>
    rw [Parcel.recover, exec_bind_ok (get_run s)]
    split
    · exact hrefl _
    next hcause =>
      simp only [Bool.or_eq_true, Bool.not_eq_true', not_or, Bool.not_eq_false] at hcause
      exact hpush _ _ hcause.2
  case limited =>
    split
    · exact fun s => hrefl _
    · exact h

end Parcel
