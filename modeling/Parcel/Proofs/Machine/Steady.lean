import Parcel.Proofs.Machine.Congruence

/-!
# More fuel changes nothing

A computation that has ended with some fuel ends in the same way with more fuel.
-/

namespace Parcel

open Code

/-- The computation lacked fuel. -/
def Unsettled {α : Type} (r : Exec.Result α) : Prop :=
  ∃ s, r = .error .outOfFuel s

lemma unsettled_bind {α β : Type} {c : Exec α} {s : State} (h : Unsettled (c s))
    (next : α → Exec β) : Unsettled ((c >>= next) s) := by
  obtain ⟨s', h⟩ := h
  exact ⟨s', exec_bind_error h next⟩

/-- Once a computation has ended, the other one ends in the same way. -/
def Extends {α : Type} (c c' : Exec α) : Prop :=
  ∀ s, Unsettled (c s) ∨ c' s = c s

/-- More fuel does not change the end of a computation. -/
def Steady {α : Type} (c : Nat → Exec α) : Prop :=
  ∀ k k', k ≤ k' → Extends (c k) (c k')

section Rules

variable {α β : Type}

variable {c c' : Exec α} {s : State}

lemma extends_refl (c : Exec α) : Extends c c :=
  fun _ => .inr rfl

lemma Extends.trans {c'' : Exec α} (h : Extends c c') (h' : Extends c' c'') : Extends c c'' := by
  intro s
  rcases h s with hc | hc
  · exact .inl hc
  · rcases h' s with hc' | hc'
    · exact .inl (hc ▸ hc')
    · exact .inr (hc'.trans hc)

lemma Extends.bind {next next' : α → Exec β} (h : Extends c c')
    (hnext : ∀ a, Extends (next a) (next' a)) : Extends (c >>= next) (c' >>= next') := by
  intro s
  rcases h s with hc | hc
  · exact .inl (unsettled_bind hc next)
  · cases hs : c s with
    | ok a s' =>
      rw [exec_bind_ok hs, exec_bind_ok (hc.trans hs)]
      exact hnext a s'
    | error => exact .inr (by rw [exec_bind_error hs, exec_bind_error (hc.trans hs)])

lemma Extends.placing (span : Span) (h : Extends c c') :
    Extends (placing span c) (placing span c') := by
  intro s
  unfold Parcel.placing
  rcases h s with ⟨s', hs⟩ | heq
  · rw [hs]
    exact .inl ⟨s', rfl⟩
  · exact .inr (by rw [heq])

lemma Extends.withFrame {action action' : Exec Unit} (frame : Frame) (h : Extends action action') :
    Extends (withFrame frame action) (withFrame frame action') := by
  intro s
  unfold Parcel.withFrame
  rcases h (s.onStack (·.push frame)) with ⟨s', hs⟩ | heq
  · rw [hs]
    exact .inl ⟨_, rfl⟩
  · exact .inr (by rw [heq])

lemma steady_of_succ {c : Nat → Exec α} (h : ∀ k, Extends (c k) (c (k + 1))) : Steady c := by
  intro k k' hle
  induction hle with
  | refl => exact extends_refl _
  | step _ ih => exact ih.trans (h _)

lemma steady_const (c : Exec α) : Steady fun _ => c :=
  fun _ _ _ => extends_refl c

lemma Steady.eq_of_eventually {c : Nat → Exec α} (h : Steady c) {r : Exec.Result α}
    {enough : Nat} (hr : ∀ k, enough ≤ k → c k s = r) {k : Nat} (hk : ¬ Unsettled (c k s)) :
    c k s = r := by
  have hmax := (h k (max enough k) (Nat.le_max_right _ _) s).resolve_left hk
  rw [← hmax, hr _ (Nat.le_max_left _ _)]

/-- With less fuel a steady computation lacks fuel all the more. -/
lemma Steady.unsettled_of_le {c : Nat → Exec α} (h : Steady c) {k k' : Nat} (hle : k ≤ k')
    (hk : Unsettled (c k' s)) : Unsettled (c k s) := by
  rcases h k k' hle s with hc | hc
  · exact hc
  · exact hc ▸ hk

end Rules

/-! ### Machines -/

section Machines

variable (m : Machine)

lemma extends_congruence : Congruence .refl m m Extends := by
  refine .ofMode (fun _ => extends_refl _) .bind (fun h s => h s s) .placing .withFrame
    (fun _ _ _ => extends_refl _) fun depth c c' h => ?_
  split
  · exact extends_refl _
  · exact h

lemma extends_runCode (k : Nat) (code : Array Stmt) :
    Extends (runCode m k code) (runCode m (k + 1) code) := by
  induction k generalizing code with
  | zero => exact fun s => .inl ⟨s, rfl⟩
  | succ k ih =>
    have h := extends_congruence m
    rw [runCode_succ, runCode_succ m (k + 1)]
    refine (extends_refl _).bind fun s => ?_
    split
    · exact extends_refl _
    · split
      · exact extends_refl _
      next stmt _ =>
        have hcalls := h.callWith fun code => by
          simpa only [Stmt.rename_refl, Array.map_id_fun', id] using ih code
        have hstmt := h.execute hcalls stmt
        rw [Stmt.rename_refl] at hstmt
        exact hstmt.bind fun _ => (extends_refl _).bind fun _ => ih code

/-- **More fuel** does not change how a run of code ends. -/
theorem steady_runCode (code : Array Stmt) : Steady fun k => runCode m k code :=
  steady_of_succ fun k => extends_runCode m k code

lemma extends_call {k k' : Nat} (hle : k ≤ k') (f : FunctionSymbol) (arguments : List Value)
    (receiver : Option Value) :
    Extends (call m k f arguments receiver) (call m k' (f.rename .refl) arguments receiver) := by
  refine (extends_congruence m).callWith (fun code => ?_) f arguments receiver
  simpa only [Stmt.rename_refl, Array.map_id_fun', id] using steady_runCode m code k k' hle

lemma steady_call (f : FunctionSymbol) (arguments : List Value) (receiver : Option Value) :
    Steady fun k => call m k f arguments receiver := by
  intro k k' hle
  simpa only [FunctionSymbol.rename_refl] using extends_call m hle f arguments receiver

lemma steady_eval (e : Expr) : Steady fun k => eval m (call m k) e := by
  intro k k' hle
  simpa only [Expr.rename_refl] using (extends_congruence m).eval (extends_call m hle) e

lemma steady_execute (stmt : Stmt) : Steady fun k => execute m (call m k) stmt := by
  intro k k' hle
  simpa only [Stmt.rename_refl] using (extends_congruence m).execute (extends_call m hle) stmt

end Machines

end Parcel
