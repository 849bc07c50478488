import Parcel.Proofs.Code.Layout
import Parcel.Proofs.Direct.Simulation

/-!
# Statements in both executions

What each kind of statement of flat code does is what a part of direct execution does: declarations,
expressions and returns, deletions at the end of a scope, conditional jumps, and the tests and steps
of counting loops, whose bound is a hidden variable in flat code.
-/

namespace Parcel

open Code List

variable {α β : Type} {post : α → State → β → State → Prop} {err : State → State → Prop}
  {r : Exec.Result α} {family : Nat → Exec.Result β}

lemma Mirror.imp {n : Nat} {post' : α → State → β → State → Prop} {err' : State → State → Prop}
    (h : Mirror n post err r family) (hpost : ∀ a s b t, post a s b t → post' a s b t)
    (herr : ∀ s t, err s t → err' s t) : Mirror n post' err' r family := by
  match r with
  | .ok a s =>
    obtain ⟨b, t, hab, hk⟩ := h
    exact ⟨b, t, hpost a s b t hab, hk⟩
  | .error (.fault f) s =>
    obtain ⟨t, hst, hk⟩ := h
    exact ⟨t, herr s t hst, hk⟩
  | .error .outOfFuel s => exact h

lemma Mirror.congr {n : Nat} {family' : Nat → Exec.Result β}
    (h : Mirror n post err r family) (heq : ∀ k, family' k = family k) :
    Mirror n post err r family' := by
  rwa [funext heq]

lemma placing_congr {c c' : Exec α} {s : State} {span : Span} (h : c s = c' s) :
    placing span c s = placing span c' s := by
  simp only [placing, h]

namespace Pairing

variable {w : Pairing} {m : Machine} {program : Program} {n limit p b : Nat}
  {bounds : Bounds} {s t : State}

variable {v bound iterator : Var} {condition : Expr} {label : Label} {q : Nat} {goal : Value}
  {lower upper : Span}

/-! ### Simple statements -/

lemma Twin.setHeap (h : w.Twin bounds p s t) (heap : Heap) :
    w.Twin bounds p { s with heap } { t with heap } :=
  ⟨⟨h.alike.globals, rfl, h.alike.recovered, h.alike.sink⟩, h.frames⟩

lemma mirror_storeVar (hbounds : w.Hides bounds) (hv : w.Shares v)
    (value : Value) (h : w.Twin bounds p s t) :
    Mirror n (fun (_ : Option Nat) s jumped t => jumped = none ∧ w.Twin bounds p s t) w.Beside
      ((storeVar v value >>= fun _ => pure none) s) fun _ =>
        (storeVar v value >>= fun _ => pure (none : Option Nat)) t := by
  rw [exec_bind_ok (storeVar_holds (h.holds v).1 value),
    exec_bind_ok (storeVar_holds (h.holds v).2 value)]
  exact Mirror.ok ⟨rfl, h.assign hv hbounds value⟩

section Simple

variable (hcalls : Corresponds m (m.withProgram program) n)
  (hbounds : w.Hides bounds)
include hcalls hbounds

variable {e : Expr} {initializer : Option Expr}

lemma mirror_eval_bind (he : ∀ a ∈ e.accesses, w.SharesAccess a) (h : w.Twin bounds p s t)
    {next : Value → Exec α} {next' : Value → Exec β} (hnext : ∀ value s₁ t₁, w.Twin bounds p s₁ t₁ →
      Mirror n post w.Beside (next value s₁) fun _ => next' value t₁) :
    Mirror n post w.Beside ((eval m (callTree m n) e >>= next) s) fun k =>
      (eval (m.withProgram program) (call (m.withProgram program) k) e >>= next') t := by
  have heval := (mirror_eval hcalls hbounds he h).imp (fun _ _ _ _ h => h) fun _ _ h => h.beside
  refine heval.bind (steady_eval _ e) fun value s₁ value' t₁ h => ?_
  obtain ⟨rfl, htwin⟩ := h
  exact hnext value s₁ t₁ htwin

lemma mirror_declare (hv : w.Shares v)
    (he : ∀ e ∈ initializer, ∀ a ∈ e.accesses, w.SharesAccess a) (h : w.Twin bounds p s t) :
    Mirror n (fun _ s jumped t => jumped = none ∧ w.Twin bounds p s t) w.Beside
      (execute m (callTree m n) (.declare v initializer) s) fun k =>
        execute (m.withProgram program) (call (m.withProgram program) k)
          (.declare v initializer) t := by
  cases initializer with
  | none =>
    show Mirror n _ _ _ fun _ => (storeVar v (t.heap.default m.catalog v.type).1 >>= fun _ =>
      pure none) { t with heap := (t.heap.default m.catalog v.type).2 }
    rw [← h.alike.heap]
    exact mirror_storeVar hbounds hv _ (h.setHeap (s.heap.default m.catalog v.type).2)
  | some e =>
    exact mirror_eval_bind hcalls hbounds (he e rfl) h fun value _ _ h₁ =>
      mirror_storeVar hbounds hv value h₁

lemma simulates_declare (hv : w.Shares v)
    (he : ∀ e ∈ initializer, ∀ a ∈ e.accesses, w.SharesAccess a)
    (hstmt : w.code[p]? = some (.declare v initializer)) :
    w.Simulates (m.withProgram program) (n + 1) bounds p (p + 1)
      ((Stmt.declare v initializer).exec m (callTree m n) n) := by
  intro s t htwin
  refine reaches_step hstmt htwin (mirror_declare hcalls hbounds hv he htwin) (Nat.le_refl n) ?_
  rintro _ s₁ _ t₁ ⟨rfl, htwin₁⟩
  exact ⟨_, htwin₁.moveTo, Leads.refl _ _ _⟩

lemma simulates_expr (he : ∀ a ∈ e.accesses, w.SharesAccess a)
    (hstmt : w.code[p]? = some (.expr e)) :
    w.Simulates (m.withProgram program) (n + 1) bounds p (p + 1)
      ((Stmt.expr e).exec m (callTree m n) n) := by
  intro s t htwin
  have hmirror : Mirror n (fun (_ : Option Nat) s jumped t => jumped = none ∧ w.Twin bounds p s t)
      w.Beside (execute m (callTree m n) (.expr e) s) fun k =>
        execute (m.withProgram program) (call (m.withProgram program) k) (.expr e) t :=
    mirror_eval_bind hcalls hbounds he htwin fun _ _ _ h₁ => Mirror.ok ⟨rfl, h₁⟩
  refine reaches_step hstmt htwin hmirror (Nat.le_refl n) ?_
  rintro _ s₁ _ t₁ ⟨rfl, htwin₁⟩
  exact ⟨_, htwin₁.moveTo, Leads.refl _ _ _⟩

omit hcalls hbounds in
/-- A call that ends has the same result in both executions. -/
lemma Twin.returned (h : w.Twin bounds p s t) {g : Frame → Frame}
    (hg : ∀ f f', f.result = f'.result → (g f).result = (g f').result ∧ (g f').returned = true) :
    w.Returned (s.onStack (·.modifyTop g)) ((t.onStack (·.modifyTop g)).moveTo b) := by
  obtain ⟨f, f', hs, ht, hf⟩ := h.frames
  refine ⟨⟨h.alike.globals, h.alike.heap, h.alike.recovered, h.alike.sink⟩, g f,
    { g f' with position := b }, frames_modifyTop hs g, ?_, hg f f' hf.result⟩
  exact frames_modifyTop (frames_modifyTop ht g) _

lemma simulates_ret {value : Option Expr}
    (he : ∀ e ∈ value, ∀ a ∈ e.accesses, w.SharesAccess a)
    (hstmt : w.code[p]? = some (.ret value)) :
    w.Simulates (m.withProgram program) (n + 1) bounds p b
      ((Stmt.ret value).exec m (callTree m n) n) := by
  intro s t htwin
  have hmirror : Mirror n (fun (_ : Option Nat) s (jumped : Option Nat) t =>
      ∀ q, w.Returned s (t.moveTo q)) w.Beside
      (execute m (callTree m n) (.ret value) s) fun k =>
        execute (m.withProgram program) (call (m.withProgram program) k) (.ret value) t := by
    cases value with
    | none => exact Mirror.ok fun q => htwin.returned fun _ _ h => ⟨h, rfl⟩
    | some e =>
      refine mirror_eval_bind hcalls hbounds (he e rfl) htwin fun value s₁ t₁ h₁ => ?_
      exact Mirror.ok fun q => h₁.returned fun _ _ _ => ⟨rfl, rfl⟩
  refine reaches_step hstmt htwin hmirror (Nat.le_refl n) ?_
  intro _ s₁ jumped t₁ hreturned
  exact ⟨_, hreturned _, Leads.refl _ _ _⟩

end Simple

/-! ### Ends of scopes -/

/-- Flat code holds these statements from a position on. -/
def CodeAt (w : Pairing) (a : Nat) (stmts : List Stmt) : Prop :=
  ∀ i, i < stmts.length → w.code[a + i]? = stmts[i]?

@[simp] lemma codeAt_nil (w : Pairing) (a : Nat) : w.CodeAt a [] ↔ True :=
  iff_true_intro standsAt_nil

@[simp] lemma codeAt_cons (w : Pairing) (a : Nat) (stmt : Stmt) (stmts : List Stmt) :
    w.CodeAt a (stmt :: stmts) ↔ w.code[a]? = some stmt ∧ w.CodeAt (a + 1) stmts :=
  standsAt_cons

@[simp] lemma codeAt_append (w : Pairing) (a : Nat) (first second : List Stmt) :
    w.CodeAt a (first ++ second) ↔ w.CodeAt a first ∧ w.CodeAt (a + first.length) second :=
  standsAt_append

/-- Both executions take a shared local variable away. -/
lemma Twin.forget (hbounds : w.Hides bounds)
    (hv : v.id.index < w.hidden) (h : w.Twin bounds p s t) : w.Twin bounds p
      (s.onStack (·.modifyTop fun f => { f with locals := f.locals.erase v.id }))
      (t.onStack (·.modifyTop fun f => { f with locals := f.locals.erase v.id })) := by
  refine h.modify fun f f' hf => ⟨hf.file, hf.result, hf.going, hf.position, hf.labels, ?_, ?_⟩
  · show (f.locals.erase v.id).below w.hidden = (f'.locals.erase v.id).below w.hidden
    rw [Store.below_erase _ hv, Store.below_erase _ hv, hf.locals]
  · intro entry hentry
    have hne : v.id ≠ entry.1 := fun heq => Nat.not_lt.mpr (hbounds entry hentry) (heq ▸ hv)
    exact (Store.get?_erase_of_ne _ hne).trans (hf.held entry hentry)

lemma simulates_forgetAll (hbounds : w.Hides bounds)
    (vars : List Var) (hvars : ∀ v ∈ vars, v.id.index < w.hidden)
    (hcode : w.CodeAt p (vars.map Stmt.delete)) :
    w.Simulates m (n + 1) bounds p (p + vars.length)
      (do vars.forM Exec.forget; return .normal) := by
  induction vars generalizing p with
  | nil => exact fun s t htwin => ⟨t, htwin, Leads.refl _ _ _⟩
  | cons v vars ih =>
    rw [map_cons, codeAt_cons] at hcode
    have hrest := ih (fun u hu => hvars u (mem_cons_of_mem _ hu)) hcode.2
    intro s t htwin
    have htwin' := htwin.forget hbounds (hvars v mem_cons_self)
    have hmirror : Mirror n (fun (_ : Unit) s jumped t => jumped = none ∧ w.Twin bounds p s t)
        w.Beside (Exec.forget v s) fun k => execute m (call m k) (.delete v) t :=
      Mirror.ok ⟨rfl, htwin'⟩
    have hforM : ((v :: vars).forM Exec.forget >>= fun _ => pure Flow.normal) =
        (Exec.forget v >>= fun _ => vars.forM Exec.forget >>= fun _ => pure Flow.normal) :=
      bind_assoc _ _ _
    rw [length_cons, Nat.add_comm vars.length 1, ← Nat.add_assoc, hforM]
    refine reaches_step hcode.1 htwin hmirror (Nat.le_refl n) ?_
    rintro _ s₁ _ t₁ ⟨rfl, htwin₁⟩
    exact (hrest s₁ _ htwin₁.moveTo).of_le (Nat.le_succ n)

/-- **The end of a scope** is a list of deletions. -/
theorem Reaches.scope (hbounds : w.Hides bounds) {vars : List Var}
    (hvars : ∀ v ∈ vars, v.id.index < w.hidden)
    (hcode : w.CodeAt b (vars.reverse.map Stmt.delete)) {action : Exec Flow}
    (h : w.Reaches m (n + 1) bounds b (action s) t) :
    w.Reaches m (n + 1) bounds (b + vars.length) (Exec.scope vars action s) t := by
  have hforget := simulates_forgetAll (m := m) (n := n) hbounds vars.reverse
    (fun v hv => hvars v (mem_reverse.mp hv)) hcode
  rw [length_reverse] at hforget
  exact h.andThen (List.Subset.refl _) hforget

/-! ### Conditions -/

lemma mirror_gotoIf_of_test {test : Exec Value} {m' : Machine}
    (hq : (labelPositions w.code)[label.index]? = some q)
    (htest : Mirror n (fun a s b t => a = b ∧ w.Twin bounds p s t) w.Beside (test s) fun k =>
      eval m' (call m' k) condition t) :
    Mirror n (w.Branched bounds p q) w.Beside ((test >>= fun value => Exec.ofExcept value.asBool) s) fun k =>
        execute m' (call m' k) (.gotoIf condition label) t := by
  refine htest.bind (steady_eval m' condition) fun value s₁ value' t₁ h => ?_
  obtain ⟨rfl, htwin⟩ := h
  cases hvalue : value.asBool with
  | error => exact Mirror.fault htwin.beside
  | ok taken =>
    cases taken with
    | false => exact Mirror.ok ⟨rfl, htwin⟩
    | true =>
      have hjump := exec_bind_ok (jump_run hq htwin) fun position =>
        (pure (some position) : Exec (Option Nat))
      exact ⟨some q, t₁, ⟨rfl, htwin⟩, 0, fun _ _ => hjump⟩

lemma mirror_gotoIf (hcalls : Corresponds m (m.withProgram program) n)
    (hbounds : w.Hides bounds)
    (he : ∀ a ∈ condition.accesses, w.SharesAccess a)
    (hq : (labelPositions w.code)[label.index]? = some q) (htwin : w.Twin bounds p s t) :
    Mirror n (w.Branched bounds p q) w.Beside (holds m (callTree m n) condition s) fun k =>
        execute (m.withProgram program) (call (m.withProgram program) k)
          (.gotoIf condition label) t :=
  mirror_gotoIf_of_test hq ((mirror_eval hcalls hbounds he htwin).imp (fun _ _ _ _ h => h)
    fun _ _ h => h.beside)

/-! ### Counting loops -/

/-- The bound of a counting loop has its value in flat code. -/
lemma Twin.load_bound (hlocal : bound.isGlobal = false)
    (h : w.Twin ((bound.id, goal) :: bounds) p s t) : loadVar bound t = .ok goal t := by
  obtain ⟨f, f', -, ht, hf⟩ := h.frames
  refine loadVar_some ?_
  rw [State.value?, hlocal, if_neg Bool.false_ne_true, top?_of_frames ht, Option.bind_some]
  exact hf.held _ mem_cons_self

lemma eval_condition (hlocal : bound.isGlobal = false)
    (h : w.Twin ((bound.id, goal) :: bounds) p s t) (m' : Machine) (invoke : Invoke) :
    eval m' invoke (.binary (.name iterator lower) .ne (.name bound upper) .bool
      (lower.merge upper)) t = comparison m' iterator goal lower upper t := by
  have hbound : placing upper (loadVar bound) t = .ok goal t :=
    placing_ok (h.load_bound hlocal)
  have hinner : (do
      let left ← placing lower (loadVar iterator)
      let right ← placing upper (loadVar bound)
      orDefault m' (Value.binary .ne left right) .bool (lower.merge upper) : Exec Value) t =
      (do
        let current ← placing lower (loadVar iterator)
        orDefault m' (Value.binary .ne current goal) .bool (lower.merge upper) : Exec Value) t := by
    cases hvalue : t.value? iterator with
    | some value =>
      have hload : placing lower (loadVar iterator) t = .ok value t :=
        placing_ok (loadVar_some hvalue)
      rw [exec_bind_ok hload, exec_bind_ok hload, exec_bind_ok hbound]
    | none =>
      have hload := @placing_fault _ _ _ _ lower _ (loadVar_none hvalue)
      rw [exec_bind_error hload, exec_bind_error hload]
  exact placing_congr hinner

/-- The test of a counting loop goes alike. -/
lemma mirror_differs (hlocal : bound.isGlobal = false) (hiterator : w.Shares iterator)
    (hbounds : w.Hides ((bound.id, goal) :: bounds))
    (hq : (labelPositions w.code)[label.index]? = some q)
    (htwin : w.Twin ((bound.id, goal) :: bounds) p s t) :
    Mirror n (w.Branched ((bound.id, goal) :: bounds) p q) w.Beside
      (differs m iterator goal lower upper s) fun k =>
        execute (m.withProgram program) (call (m.withProgram program) k)
          (.gotoIf (.binary (.name iterator lower) .ne (.name bound upper) .bool
            (lower.merge upper)) label) t := by
  have touched : w.SharesAccess (.read iterator) := by
    rintro _ ⟨⟩
    exact hiterator
  have follows {R : State → State → Prop} (hR : Coupled R w.SharesAccess fun _ => True) :
      Follows R (fun _ => True) (comparison m iterator goal lower upper) fun _ =>
        comparison m iterator goal lower upper :=
    hR.placing _ ((hR.placing _ (hR.loadVar touched)).bind fun current =>
      (hR.compatible m m.program).orDefault (operational_binary _ current goal) _ _)
  have hcoupled := coupled_twin (p := p) hbounds
  have hmirror := mirror_of_follows (n := n) (follows hcoupled)
    (fun _ _ => follows hcoupled.flip) htwin
  refine mirror_gotoIf_of_test hq ((hmirror.imp (fun _ _ _ _ h => h) fun _ _ h => h.beside).congr ?_)
  exact fun k => eval_condition hlocal htwin _ _

/-- The step of a counting loop in flat code moves the iterator toward the value of the bound. -/
lemma execute_approach (hlocal : bound.isGlobal = false)
    (h : w.Twin ((bound.id, goal) :: bounds) p s t) (m' : Machine) (invoke : Invoke) :
    execute m' invoke (.approach iterator bound) t =
      (advance iterator goal >>= fun _ => pure none) t := by
  have hbound := h.load_bound hlocal
  simp only [execute, advance, bind_assoc]
  cases hvalue : t.value? iterator with
  | none =>
    have hload := loadVar_none hvalue
    rw [exec_bind_error hload, exec_bind_error hload]
  | some value =>
    have hload := loadVar_some hvalue
    rw [exec_bind_ok hload, exec_bind_ok hload]
    cases hinteger : value.asInteger with
    | error => rfl
    | ok current =>
      have hcurrent : (Exec.ofExcept (.ok current) : Exec Int) t = .ok current t := rfl
      rw [exec_bind_ok hcurrent, exec_bind_ok hcurrent, exec_bind_ok hbound]

/-- The step of a counting loop goes alike. -/
lemma mirror_advance (hlocal : bound.isGlobal = false) (hiterator : w.Shares iterator)
    (hbounds : w.Hides ((bound.id, goal) :: bounds))
    (htwin : w.Twin ((bound.id, goal) :: bounds) p s t) (m' : Machine) :
    Mirror n (fun (_ : Unit) s jumped t => jumped = none ∧
      w.Twin ((bound.id, goal) :: bounds) p s t) w.Beside (advance iterator goal s) fun k =>
        execute m' (call m' k) (.approach iterator bound) t := by
  have touched : w.SharesAccess (.read iterator) ∧ w.SharesAccess (.write iterator) := by
    constructor
    all_goals
      rintro _ ⟨⟩
      exact hiterator
  have follows {R : State → State → Prop} (hR : Coupled R w.SharesAccess fun _ => True) :
      Follows R (fun _ => True) (advance iterator goal) fun _ => advance iterator goal := by
    refine (hR.loadVar touched.1).bind fun current => ?_
    refine (hR.ofExcept (operational_asInteger current)).bind fun current => ?_
    refine (hR.ofExcept (operational_asInteger goal)).bind fun goal => ?_
    refine hR.get fun s t hheap => ?_
    rw [← hheap]
    exact (hR.ofExcept (operational_convert _ _ _)).bind fun value => hR.storeVar touched.2 value
  have hcoupled := coupled_twin (p := p) hbounds
  have hmirror := mirror_of_follows (n := n) (follows hcoupled)
    (fun _ _ => follows hcoupled.flip) htwin
  have hbeside := hmirror.imp (fun _ _ _ _ h => h) fun _ _ h => h.beside
  have hnone : Mirror n (fun (_ : Unit) s jumped t => jumped = none ∧
      w.Twin ((bound.id, goal) :: bounds) p s t) w.Beside
      ((advance iterator goal >>= pure) s) fun _ =>
        (advance iterator goal >>= fun _ => pure (none : Option Nat)) t :=
    hbeside.bind (steady_const _) fun _ _ _ _ h => Mirror.ok ⟨rfl, h.2⟩
  rw [bind_pure] at hnone
  exact hnone.congr fun k => execute_approach hlocal htwin m' _

lemma Twin.hide (goal : Value) (hlocal : bound.isGlobal = false)
    (hbound : w.hidden ≤ bound.id.index) (hnew : ∀ entry ∈ bounds, entry.1 ≠ bound.id)
    (h : w.Twin bounds p s t) : w.Twin ((bound.id, goal) :: bounds) p s (t.assign bound goal) := by
  rw [State.assign, hlocal, if_neg Bool.false_ne_true]
  refine h.modify_right fun f f' hf =>
    ⟨hf.file, hf.result, hf.going, hf.position, hf.labels, ?_, ?_⟩
  · show f.locals.below w.hidden = (f'.locals.set bound.id goal).below w.hidden
    rw [Store.below_set_of_le _ _ hbound, hf.locals]
  · intro entry hentry
    show (f'.locals.set bound.id goal).get? entry.1 = _
    rw [Store.get?_set]
    rcases mem_cons.mp hentry with rfl | hentry
    · rw [if_pos rfl]
    · rw [if_neg fun heq => hnew entry hentry heq.symm, hf.held entry hentry]

lemma mirror_bound (hcalls : Corresponds m (m.withProgram program) n)
    (hbounds : w.Hides bounds) {upper : Expr}
    (hlocal : bound.isGlobal = false) (hbound : w.hidden ≤ bound.id.index)
    (hnew : ∀ entry ∈ bounds, entry.1 ≠ bound.id) (he : ∀ a ∈ upper.accesses, w.SharesAccess a)
    (htwin : w.Twin bounds p s t) :
    Mirror n (fun goal s jumped t => jumped = none ∧ w.Twin ((bound.id, goal) :: bounds) p s t)
      w.Beside (eval m (callTree m n) upper s) fun k =>
        execute (m.withProgram program) (call (m.withProgram program) k)
          (.declare bound (some upper)) t := by
  rw [← bind_pure (eval m (callTree m n) upper)]
  refine mirror_eval_bind hcalls hbounds he htwin fun goal s₁ t₁ h₁ => ?_
  rw [exec_bind_ok (storeVar_holds (h₁.holds bound).2 goal)]
  exact Mirror.ok ⟨rfl, h₁.hide goal hlocal hbound hnew⟩

end Pairing

end Parcel
