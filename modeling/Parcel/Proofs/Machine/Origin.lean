import Parcel.Proofs.Isolation
import Parcel.Proofs.Machine.Operands

/-!
# Where faults come from

A fault that is reported of an activity arises in the activity itself or in one that it begins. An
expression places the faults that come up through it, unless they have a place already; everything
else passes them on as they are.
-/

namespace Parcel

open Code List

variable {a b : Moment} {t : State} {e : Expr}

/-- Whether the activity evaluates an expression. -/
def Activity.isExpr : Activity → Bool
  | expr _ => true
  | entry _ | reset _ | group _ | call _ _ _ | code _ | stmt _ => false

/-- What is done in the course of an activity. Other than with `Starts`, an operand is begun only if
it is demanded, and no statement is taken apart that is not lowered. -/
inductive Begins (m : Machine) : Moment → Moment → Prop
  | expr {fuel stmt e s} : stmt.isLowered = true → e ∈ stmt.ownExprs →
    Begins m ⟨fuel, .stmt stmt, s⟩ ⟨fuel, .expr e, s⟩
  | operand {fuel e operand before after values s t} : e.operands = before ++ operand :: after →
    evalAll m (call m fuel) before s = .ok values t → e.demandsNext values = true →
    Begins m ⟨fuel, .expr e, s⟩ ⟨fuel, .expr operand, t⟩
  | other {a b : Moment} : Starts m a b → b.activity.isExpr = false → Begins m a b

lemma Begins.starts {m : Machine} (h : Begins m a b) : Starts m a b := by
  cases h with
  | expr _ he => exact .expr he
  | operand hsplit hdone => exact .operand hsplit hdone
  | other h => exact h

/-- The fault that is reported of an activity. -/
def Moment.fault? (m : Machine) (incident : Incident) (moment : Moment) : Option Fault :=
  incident.fault? moment.state (moment.ending m)

/-- How an activity passes a fault on that comes up. -/
def Moment.passes (incident : Incident) (moment : Moment) (f : Fault) : Fault :=
  match moment.activity with
  | .expr e => incident.placed ⟨e.span, moment.state.file⟩ f
  | _ => f

lemma Activity.Changes.file_eq {activity : Activity} {frame frame' : Frame}
    (h : activity.Changes frame frame') : frame'.file = frame.file := by
  cases activity with
  | expr | stmt | code | entry | reset | group | call =>
    have hfile := congrArg Frame.file (show frame' = _ from h)
    exact hfile

lemma Within.file_eq {changes : Frame → Frame → Prop} {s : State}
    (h : Within changes s.stack.frames t)
    (hfile : ∀ frame frame', changes frame frame' → frame'.file = frame.file) :
    t.file = s.file := by
  unfold Within at h
  unfold State.file Stack.top?
  generalize s.stack.frames = frames at h ⊢
  generalize t.stack.frames = frames' at h ⊢
  cases h with
  | empty => rfl
  | top tail h => exact hfile _ _ h

section Activities

variable {m : Machine} {fuel : Nat} {incident : Incident} {s : State} {f : Fault}

variable {g : FunctionSymbol} {code : Array Stmt} {arguments : List Value} {receiver : Option Value}
  {file : Option Nat} {result : Value}

/-! ### Expressions -/

/-- Expressions leave the file of the innermost frame. -/
lemma file_eval {g : Fault} (h : eval m (call m fuel) e s = .error (.fault g) t) :
    t.file = s.file := by
  have hends := safe_eval_within (m := m) (changing_expr e) (leavesFrames_call m fuel) e s.stack.frames
    s (.refl (changing_expr e).refl _)
  rw [h] at hends
  exact Within.file_eq hends.2 fun _ _ => Activity.Changes.file_eq

/-- The fault of an expression is that of its operands or of its own part, placed at the
expression. -/
lemma Moment.fault?_expr : Moment.fault? m incident ⟨fuel, .expr e, s⟩ = some f ↔
      ∃ g, incident.placed ⟨e.span, s.file⟩ g = f ∧
        (incident.fault? s (gather m (call m fuel) e [] e.operands s) = some g ∨
          ∃ values t, gather m (call m fuel) e [] e.operands s = .ok values t ∧
            incident.fault? t (perform m (call m fuel) e values t) = some g) := by
  have hplaced : Moment.fault? m incident ⟨fuel, .expr e, s⟩ =
      (incident.fault? s ((gather m (call m fuel) e [] e.operands >>=
        perform m (call m fuel) e) s)).map fun g => incident.placed ⟨e.span, s.file⟩ g := by
    refine (incident.fault?_map some).trans ?_
    rw [eval_eq]
    refine incident.fault?_placing e.span fun g t hfault => ?_
    have heval : eval m (call m fuel) e s = .error (.fault (g.placed ⟨e.span, t.file⟩)) t := by
      rw [eval_eq]
      exact placing_fault hfault
    exact file_eval heval
  rw [hplaced, Option.map_eq_some_iff]
  refine exists_congr fun g => ?_
  rw [incident.fault?_bind (collects_gather m fuel e [] e.operands) (collects_perform m fuel e), and_comm]

/-! ### Statements and code -/

/-- A lowered statement evaluates its expression first; what it does then is plain. -/
lemma execute_eq_bind {stmt : Stmt} (hlow : stmt.isLowered = true) (he : e ∈ stmt.ownExprs)
    (m : Machine) (invoke : Invoke) :
    ∃ next : Value → Exec (Option Nat), execute m invoke stmt = eval m invoke e >>= next ∧
      ∀ value, Plain (next value) := by
  cases stmt with
  | declare v initializer =>
    cases initializer with
    | none => cases he
    | some =>
      obtain rfl := mem_singleton.mp he
      exact ⟨_, rfl, fun value => (Plain.storeVar v value).bind fun _ => .pure _⟩
  | ret value =>
    cases value with
    | none => cases he
    | some =>
      obtain rfl := mem_singleton.mp he
      exact ⟨_, rfl, fun value => (Plain.modifyFrame _).bind fun _ => .pure _⟩
  | expr =>
    obtain rfl := mem_singleton.mp he
    exact ⟨_, rfl, fun value => .pure _⟩
  | gotoIf condition label =>
    obtain rfl := mem_singleton.mp he
    refine ⟨_, rfl, fun value => (Plain.ofExcept _).bind fun decision => ?_⟩
    split
    · exact (Plain.jump label).bind fun _ => .pure _
    · exact .pure _
  | label | goto | delete | approach => cases he
  | whileLoop | forLoop | fromTo | loop | block | ifElse => cases hlow

lemma fault?_runCode : incident.fault? s (runCode m (fuel + 1) code s) = some f ↔
      ∃ frame stmt, s.stack.top? = some frame ∧ frame.returned = false ∧
        code[frame.position]? = some stmt ∧
        (incident.fault? s (execute m (call m fuel) stmt s) = some f ∨
          ∃ jumped t, execute m (call m fuel) stmt s = .ok jumped t ∧
            incident.fault? (t.onStack (·.modifyTop fun top =>
              { top with position := jumped.getD (frame.position + 1) })) (runCode m fuel code
                (t.onStack (·.modifyTop fun top =>
                  { top with position := jumped.getD (frame.position + 1) }))) = some f) := by
  have hnone : incident.fault? s (.ok () s : Exec.Result Unit) = none :=
    incident.fault?_ok rfl
  cases hframes : s.stack.frames with
  | nil =>
    have htop : s.stack.top? = none := by rw [Stack.top?, hframes]; rfl
    have hrun : runCode m (fuel + 1) code s = .ok () s := by
      rw [runCode, exec_bind_ok (get_run s), htop]
      rfl
    rw [hrun, hnone]
    simp [htop]
  | cons frame =>
    have htop := top?_of_frames hframes
    cases hreturned : frame.returned with
    | true =>
      rw [runCode_returned hframes hreturned, hnone]
      simp [htop, hreturned]
    | false =>
      cases hstmt : code[frame.position]? with
      | none =>
        rw [runCode_end hframes hreturned hstmt, hnone]
        simp [htop, hstmt]
      | some stmt =>
        rw [runCode_step hframes hreturned hstmt]
        refine (incident.fault?_bind (Collects.execute m fuel stmt) fun jumped =>
          (Plain.modifyFrame _).collects.bind fun _ => Collects.runCode m fuel code).trans ?_
        -- the step from one statement to the next has no incident
        have onward (position : Nat) (t : State) (result : Exec.Result Unit) :
            incident.fault? t result = incident.fault? (t.onStack (·.modifyTop fun top =>
              { top with position })) result := by
          cases incident <;> rfl
        constructor
        · rintro (hf | ⟨jumped, t, hdone, hf⟩)
          · exact ⟨frame, stmt, htop, hreturned, hstmt, .inl hf⟩
          · exact ⟨frame, stmt, htop, hreturned, hstmt, .inr ⟨jumped, t, hdone,
              (onward _ t _).symm.trans hf⟩⟩
        · rintro ⟨frame', stmt', htop', -, hstmt', hf⟩
          obtain rfl := Option.some.inj (htop.symm.trans htop')
          obtain rfl := Option.some.inj (hstmt.symm.trans hstmt')
          refine hf.imp_right ?_
          rintro ⟨jumped, t, hdone, hf⟩
          exact ⟨jumped, t, hdone, (onward _ t _).trans hf⟩

/-! ### Calls and groups -/

lemma fault?_call_body (hkind : g.kind = .interpreted)
    (hdepth : s.stack.depth < m.mode.maxCallDepth) (hcode : codeOf m.program g = .ok (file, code))
    (hresult : Exec.onHeap (·.default m.catalog g.returnType) s = .ok result t) :
    incident.fault? s (call m fuel g arguments receiver s) =
      Moment.fault? m incident ⟨fuel, .code code, t.onStack (·.push (Frame.enter g.qualifiedName file
        code (bindParams g.params arguments) result))⟩ := by
  rw [call_interpreted hkind, if_neg (Nat.not_le.mpr hdepth), hcode]
  cases hresult
  have hstart {α : Type} (r : Exec.Result α) : incident.fault? s r = incident.fault?
      { s with heap := (s.heap.default m.catalog g.returnType).2 } r := by
    cases incident <;> rfl
  refine (hstart _).trans ((incident.fault?_map _).trans ?_)
  exact (incident.fault?_withFrame _ _).trans (incident.fault?_map fun _ => none).symm

lemma fault?_runGroup (group : GlobalGroup) :
    incident.fault? s (runGroup m fuel group s) = Moment.fault? m incident ⟨fuel,
      .code group.stmts.toArray, s.enter group⟩ := by
  refine (incident.fault?_map fun _ => ()).trans ?_
  exact (incident.fault?_withFrame _ _).trans (incident.fault?_map fun _ => none).symm

/-- The fault of a run is that of a variable reset, of a group, or of the call of the entry
function. -/
lemma fault?_runEntry {entry : FunctionSymbol} :
    incident.fault? s (runEntry m fuel entry s) = some f ↔
      (∃ before v after t, m.program.globals.flatMap declaredVars = before ++ v :: after ∧
        before.forM (setDefault m) s = .ok () t ∧ incident.fault? t (setDefault m v t) = some f) ∨
      (∃ s₁ before group after t, initSchedule m entry.package = before ++ group :: after ∧
        (m.program.globals.flatMap declaredVars).forM (setDefault m) s = .ok () s₁ ∧
        before.forM (runGroup m fuel) s₁ = .ok () t ∧
        incident.fault? t (runGroup m fuel group t) = some f) ∨
      ∃ s₁, runGlobals m fuel entry.package s = .ok () s₁ ∧
        (incident.fault? s₁ (defaultArguments m entry s₁) = some f ∨
          ∃ arguments t, defaultArguments m entry s₁ = .ok arguments t ∧
            incident.fault? t (call m fuel entry arguments none t) = some f) := by
  have hresets := Collects.forM (fun v => (Plain.setDefault m v).collects)
    (m.program.globals.flatMap declaredVars)
  have hgroups := Collects.forM (Collects.runGroup m fuel) (initSchedule m entry.package)
  have hglobals : Collects (runGlobals m fuel entry.package) := by
    rw [runGlobals_eq]
    exact hresets.bind fun _ => hgroups
  have hdefaults : Collects (defaultArguments m entry) :=
    (Plain.mapM entry.params fun _ => .onHeap _).collects
  have hcall (arguments : List Value) := Collects.call m fuel entry arguments none
  refine (incident.fault?_bind hglobals fun _ => hdefaults.bind hcall).trans ?_
  rw [← or_assoc]
  refine or_congr ?_ ?_
  · rw [runGlobals_eq, incident.fault?_bind hresets fun _ => hgroups]
    refine or_congr (incident.fault?_forM (fun v => (Plain.setDefault m v).collects) _) ?_
    constructor
    · rintro ⟨⟨⟩, s₁, hreset, hf⟩
      obtain ⟨before, group, after, t, hsplit, hdone, hf⟩ :=
        (incident.fault?_forM (Collects.runGroup m fuel) _).mp hf
      exact ⟨s₁, before, group, after, t, hsplit, hreset, hdone, hf⟩
    · rintro ⟨s₁, before, group, after, t, hsplit, hreset, hdone, hf⟩
      exact ⟨(), s₁, hreset, (incident.fault?_forM (Collects.runGroup m fuel) _).mpr
        ⟨before, group, after, t, hsplit, hdone, hf⟩⟩
  · constructor
    · rintro ⟨⟨⟩, s₁, hdone, hf⟩
      exact ⟨s₁, hdone, (incident.fault?_bind hdefaults hcall).mp hf⟩
    · rintro ⟨s₁, hdone, hf⟩
      exact ⟨(), s₁, hdone, (incident.fault?_bind hdefaults hcall).mpr hf⟩

end Activities

/-! ### What is begun -/

section Begun

variable {m : Machine} {incident : Incident} {f : Fault}

/-! What activities are made of, without the value that they give. -/

lemma fault?_none {α : Type} {c : Exec α} {s : State} :
    incident.fault? s ((c >>= fun _ => pure (none : Option Value)) s) = incident.fault? s (c s) :=
  incident.fault?_map fun _ => none

lemma fault?_some {c : Exec Value} {s : State} :
    incident.fault? s ((c >>= fun value => pure (some value)) s) = incident.fault? s (c s) :=
  incident.fault?_map some

/-- **The fault of what is begun comes up**, passed on by the activity. -/
theorem Begins.fault? (h : Begins m a b) (hf : b.fault? m incident = some f) :
    a.fault? m incident = some (a.passes incident f) := by
  cases h with
  | @expr fuel stmt e s hlow he =>
    obtain ⟨next, hexecute, hnext⟩ := execute_eq_bind hlow he m (call m fuel)
    refine fault?_none.trans ?_
    rw [hexecute]
    refine (incident.fault?_bind (Collects.eval m fuel e) fun value => (hnext value).collects).mpr (.inl ?_)
    exact fault?_some.symm.trans hf
  | @operand fuel e operand before after values s t hsplit hdone hdemand =>
    have hoperand := fault?_some.symm.trans hf
    have hgather := fault?_gather.mpr ⟨before, operand, after, values, t, hsplit, hdone, hdemand, hoperand⟩
    exact Moment.fault?_expr.mpr ⟨f, rfl, .inl hgather⟩
  | other h hexpr =>
    cases h with
    | reset hsplit hdone =>
      exact fault?_some.trans (fault?_runEntry.mpr (.inl ⟨_, _, _, _, hsplit, hdone, fault?_none.symm.trans hf⟩))
    | group hsplit hdefaults hdone =>
      exact fault?_some.trans (fault?_runEntry.mpr (.inr (.inl
        ⟨_, _, _, _, _, hsplit, hdefaults, hdone, fault?_none.symm.trans hf⟩)))
    | entry hglobals hdefaults =>
      exact fault?_some.trans (fault?_runEntry.mpr (.inr (.inr
        ⟨_, hglobals, .inr ⟨_, _, hdefaults, fault?_some.symm.trans hf⟩⟩)))
    | declarations => exact fault?_none.trans ((fault?_runGroup _).trans hf)
    | body hkind hdepth hcode hresult =>
      exact fault?_some.trans ((fault?_call_body hkind hdepth hcode hresult).trans hf)
    | stmt htop hreturned hstmt =>
      exact fault?_none.trans (fault?_runCode.mpr
        ⟨_, _, htop, hreturned, hstmt, .inl (fault?_none.symm.trans hf)⟩)
    | next htop hreturned hstmt hdone =>
      exact fault?_none.trans (fault?_runCode.mpr
        ⟨_, _, htop, hreturned, hstmt, .inr ⟨_, _, hdone, fault?_none.symm.trans hf⟩⟩)
    | expr | operand => cases hexpr
    | @function fuel g arguments span values s t hdone =>
      have hgather : gather m (call m fuel) (.call g arguments span) [] arguments s = .ok values t := by
        rw [gather_of_demanded m _ fun _ => rfl]
        exact exec_bind_ok hdone _
      have hcall : incident.fault? t (call m fuel g values none t) = some f := fault?_some.symm.trans hf
      exact Moment.fault?_expr.mpr ⟨f, rfl, .inr ⟨values, t, hgather, hcall⟩⟩
    | @method fuel g receiver arguments span v values s s₁ t hreceiver hdone =>
      have hgather : gather m (call m fuel) (.methodCall g receiver arguments span) []
          (receiver :: arguments) s = .ok (v :: values) t := by
        rw [gather_of_demanded m _ fun _ => rfl]
        exact exec_bind_ok ((exec_bind_ok hreceiver _).trans (exec_bind_ok hdone _)) _
      have hcall : incident.fault? t (call m fuel g values (some v) t) = some f :=
        fault?_some.symm.trans hf
      exact Moment.fault?_expr.mpr ⟨f, rfl, .inr ⟨v :: values, t, hgather, hcall⟩⟩

end Begun

/-! ### The size of activities -/

/-- A number that is smaller for what is begun with the same fuel. -/
noncomputable def Activity.rank : Activity → Nat
  | reset _ => 0
  | code _ => 1
  | call _ _ _ => 2
  | expr e => 3 + sizeOf e
  | stmt part => 3 + sizeOf part
  | group _ => 3
  | entry _ => 4

end Parcel
