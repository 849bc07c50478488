import Parcel.Proofs.Direct.Twin

/-!
# Flat code simulates direct execution

A piece of flat code simulates an action if a run that enters it at its start leaves it as the
action does: at its end if the action ends normally, at a label if the action jumps there, and with
a fault if the action faults. As long as the action lacks fuel the run lacks it too.
-/

namespace Parcel

open Code

/-! ### Runs of flat code -/

section Runs

variable {m : Machine} {code : Array Stmt} {t t₁ t₂ : State}

/-- A run ends like this once it has enough fuel. -/
def Finishes (m : Machine) (code : Array Stmt) (t : State) (r : Exec.Result Unit) :
    Prop :=
  ∃ enough, ∀ k, enough ≤ k → runCode m k code t = r

/-- A run from one state goes on as from another one, for which it does not have more fuel. -/
structure Leads (m : Machine) (code : Array Stmt) (t t₁ : State) : Prop where
  ends : ∀ r, Finishes m code t₁ r → Finishes m code t r
  unsettled : ∀ k, Unsettled (runCode m k code t₁) → Unsettled (runCode m k code t)

/-- As before, with at least one step between the states. -/
structure LeadsOn (m : Machine) (code : Array Stmt) (t t₁ : State) : Prop where
  ends : ∀ r, Finishes m code t₁ r → Finishes m code t r
  unsettled : ∀ k, Unsettled (runCode m k code t₁) → Unsettled (runCode m (k + 1) code t)

lemma unsettled_runCode_zero (m : Machine) (code : Array Stmt) (t : State) :
    Unsettled (runCode m 0 code t) :=
  ⟨t, rfl⟩

lemma Leads.refl (m : Machine) (code : Array Stmt) (t : State) : Leads m code t t :=
  ⟨fun _ h => h, fun _ h => h⟩

lemma Leads.trans (h₁ : Leads m code t t₁) (h₂ : Leads m code t₁ t₂) : Leads m code t t₂ :=
  ⟨fun r h => h₁.ends r (h₂.ends r h), fun k h => h₁.unsettled k (h₂.unsettled k h)⟩

lemma LeadsOn.leads (h : LeadsOn m code t t₁) : Leads m code t t₁ := by
  refine ⟨h.ends, fun k hk => ?_⟩
  exact (steady_runCode m code).unsettled_of_le (Nat.le_succ k) (h.unsettled k hk)

/-- The state with the innermost frame at another position. -/
def State.moveTo (t : State) (position : Nat) : State :=
  t.onStack (·.modifyTop fun frame => { frame with position })

variable {frame : Frame} {tail : List Frame} {stmt : Stmt}

lemma leadsOn_step (hframes : t.stack.frames = frame :: tail) (hgoing : frame.returned = false)
    (hstmt : code[frame.position]? = some stmt) {jumped : Option Nat} {enough : Nat}
    (hexecute : ∀ k, enough ≤ k → execute m (call m k) stmt t = .ok jumped t₁) :
    LeadsOn m code t (t₁.moveTo (jumped.getD (frame.position + 1))) := by
  constructor
  · rintro r ⟨enough', hr⟩
    refine ⟨max enough enough' + 1, fun k hk => ?_⟩
    obtain ⟨k, rfl⟩ : ∃ j, k = j + 1 := ⟨k - 1, by omega⟩
    rw [runCode_step hframes hgoing hstmt]
    exact (exec_bind_ok (hexecute k (by omega)) _).trans (hr k (by omega))
  · intro k hk
    rw [runCode_step hframes hgoing hstmt]
    by_cases hunsettled : Unsettled (execute m (call m k) stmt t)
    · exact unsettled_bind hunsettled _
    · have hsettled := (steady_execute m stmt).eq_of_eventually hexecute hunsettled
      have hnext := exec_bind_ok hsettled (proceed m k code frame.position)
      exact hnext ▸ hk

lemma finishes_step_fault (hframes : t.stack.frames = frame :: tail)
    (hgoing : frame.returned = false) (hstmt : code[frame.position]? = some stmt) {f : Fault}
    {enough : Nat}
    (hexecute : ∀ k, enough ≤ k → execute m (call m k) stmt t = .error (.fault f) t₁) :
    Finishes m code t (.error (.fault f) t₁) := by
  refine ⟨enough + 1, fun k hk => ?_⟩
  obtain ⟨k, rfl⟩ : ∃ j, k = j + 1 := ⟨k - 1, by omega⟩
  rw [runCode_step hframes hgoing hstmt]
  exact exec_bind_error (hexecute k (by omega)) _

lemma unsettled_step (hframes : t.stack.frames = frame :: tail)
    (hgoing : frame.returned = false) (hstmt : code[frame.position]? = some stmt) {n : Nat}
    (hexecute : ∀ k, k ≤ n → Unsettled (execute m (call m k) stmt t)) :
    ∀ k, k ≤ n + 1 → Unsettled (runCode m k code t) := by
  intro k hk
  cases k with
  | zero => exact unsettled_runCode_zero m code t
  | succ k =>
    rw [runCode_step hframes hgoing hstmt]
    exact unsettled_bind (hexecute k (by omega)) _

end Runs

/-! ### Simulation -/

namespace Pairing

/-- The states of the two executions after the call has ended. -/
structure Returned (w : Pairing) (s t : State) : Prop where
  alike : Alike s t
  frames : ∃ f f', s.stack.frames = f :: w.outer ∧ t.stack.frames = f' :: w.outer' ∧
    f.result = f'.result ∧ f'.returned = true

/-- Where the run of flat code is when an action has ended. -/
def Lands (w : Pairing) (bounds : Bounds) (b : Nat) : Flow → State → State → Prop
  | .normal, s, t => w.Twin bounds b s t
  | .jump label, s, t => ∃ q, (labelPositions w.code)[label.index]? = some q ∧
    w.Twin bounds q s t
  | .returned, s, t => w.Returned s t

/-- From a state the run of flat code does what the result of an action says; with no more fuel than
`limit` it does not end before the action. -/
def Reaches (w : Pairing) (m : Machine) (limit : Nat) (bounds : Bounds) (b : Nat)
    (r : Exec.Result Flow) (t : State) : Prop :=
  match r with
  | .ok flow s => ∃ t', w.Lands bounds b flow s t' ∧ Leads m w.code t t'
  | .error (.fault f) s => ∃ t', w.Beside s t' ∧ Finishes m w.code t (.error (.fault f) t')
  | .error .outOfFuel _ => ∀ k, k ≤ limit → Unsettled (runCode m k w.code t)

/-- Flat code between two positions does what an action does. -/
def Simulates (w : Pairing) (m : Machine) (limit : Nat) (bounds : Bounds) (a b : Nat)
    (action : Exec Flow) : Prop :=
  ∀ s t, w.Twin bounds a s t → w.Reaches m limit bounds b (action s) t

section Rules

variable {w : Pairing} {m : Machine} {limit limit' a b c : Nat} {bounds bounds' : Bounds}
  {s t t₁ : State} {r : Exec.Result Flow} {action first second : Exec Flow}

lemma Reaches.of_leads (hleads : Leads m w.code t t₁) (h : w.Reaches m limit bounds b r t₁) :
    w.Reaches m limit bounds b r t := by
  match r with
  | .ok flow s =>
    obtain ⟨t', hlands, h⟩ := h
    exact ⟨t', hlands, hleads.trans h⟩
  | .error (.fault f) s =>
    obtain ⟨t', hbeside, h⟩ := h
    exact ⟨t', hbeside, hleads.ends _ h⟩
  | .error .outOfFuel s => exact fun k hk => hleads.unsettled k (h k hk)

lemma Reaches.of_leadsOn (hleads : LeadsOn m w.code t t₁) (h : w.Reaches m limit bounds b r t₁) :
    w.Reaches m (limit + 1) bounds b r t := by
  match r with
  | .ok _ _ | .error (.fault _) _ => exact Reaches.of_leads hleads.leads h
  | .error .outOfFuel s =>
    intro k hk
    cases k with
    | zero => exact unsettled_runCode_zero m w.code t
    | succ k => exact hleads.unsettled k (h k (by omega))

lemma Reaches.of_le (h : w.Reaches m limit bounds b r t) (hle : limit' ≤ limit) :
    w.Reaches m limit' bounds b r t := by
  match r with
  | .ok flow s => exact h
  | .error (.fault f) s => exact h
  | .error .outOfFuel s => exact fun k hk => h k (Nat.le_trans hk hle)

lemma Lands.of_subset {flow : Flow} (h : w.Lands bounds b flow s t) (hsub : bounds' ⊆ bounds) :
    w.Lands bounds' b flow s t := by
  cases flow with
  | normal => exact Twin.of_subset h hsub
  | jump =>
    obtain ⟨q, hq, htwin⟩ := h
    exact ⟨q, hq, htwin.of_subset hsub⟩
  | returned => exact h

/-- What follows on an action that ends normally. -/
lemma Reaches.andThen (h : w.Reaches m limit bounds b (first s) t) (hsub : bounds' ⊆ bounds)
    (hsecond : ∀ s₁ t₁, w.Twin bounds b s₁ t₁ → w.Reaches m limit bounds' c (second s₁) t₁) :
    w.Reaches m limit bounds' c (Exec.andThen first second s) t := by
  unfold Exec.andThen
  cases hfirst : first s with
  | ok flow s₁ =>
    rw [hfirst] at h
    rw [exec_bind_ok hfirst]
    obtain ⟨t₁, hlands, hleads⟩ := h
    cases flow with
    | normal => exact (hsecond s₁ t₁ hlands).of_leads hleads
    | jump label =>
      exact ⟨t₁, @Lands.of_subset w c bounds bounds' s₁ t₁ (.jump label) hlands hsub, hleads⟩
    | returned => exact ⟨t₁, hlands, hleads⟩
  | error e =>
    rw [hfirst] at h
    rw [exec_bind_error hfirst]
    cases e with
    | fault | outOfFuel => exact h

lemma Simulates.andThen (h₁ : w.Simulates m limit bounds a b first)
    (h₂ : w.Simulates m limit bounds b c second) :
    w.Simulates m limit bounds a c (Exec.andThen first second) :=
  fun s t h => (h₁ s t h).andThen (List.Subset.refl _) h₂

lemma Reaches.catching {label : Label} (hlabel : (labelPositions w.code)[label.index]? = some b)
    (h : w.Reaches m limit bounds b (action s) t) :
    w.Reaches m limit bounds b (Exec.catching label action s) t := by
  unfold Exec.catching
  cases haction : action s with
  | ok flow =>
    rw [haction] at h
    rw [exec_bind_ok haction]
    obtain ⟨t₁, hlands, hleads⟩ := h
    cases flow with
    | normal | returned => exact ⟨t₁, hlands, hleads⟩
    | jump target =>
      obtain ⟨q, hq, htwin⟩ := hlands
      by_cases heq : target = label
      · subst heq
        obtain rfl : q = b := Option.some.inj (hq.symm.trans hlabel)
        dsimp only
        rw [if_pos rfl]
        exact ⟨t₁, htwin, hleads⟩
      · dsimp only
        rw [if_neg heq]
        exact ⟨t₁, ⟨q, hq, htwin⟩, hleads⟩
  | error e =>
    rw [haction] at h
    rw [exec_bind_error haction]
    cases e with
    | fault | outOfFuel => exact h

/-- The code at the end of an action goes on by itself. -/
lemma Reaches.silent (h : w.Reaches m limit bounds b r t) (hsub : bounds' ⊆ bounds)
    (hsilent : ∀ s₁ t₁, w.Twin bounds b s₁ t₁ → ∃ t₂, w.Twin bounds' c s₁ t₂ ∧
      Leads m w.code t₁ t₂) : w.Reaches m limit bounds' c r t := by
  match r with
  | .ok .normal s =>
    obtain ⟨t₁, hlands, hleads⟩ := h
    obtain ⟨t₂, htwin, hleads'⟩ := hsilent s t₁ hlands
    exact ⟨t₂, htwin, hleads.trans hleads'⟩
  | .ok (.jump label) s =>
    obtain ⟨t₁, hlands, hleads⟩ := h
    exact ⟨t₁, @Lands.of_subset w c bounds bounds' s t₁ (.jump label) hlands hsub, hleads⟩
  | .ok .returned s => exact h
  | .error (.fault f) s => exact h
  | .error .outOfFuel s => exact h

end Rules

/-! ### Statements of flat code -/

section Steps

variable {w : Pairing} {m : Machine} {program : Program} {n limit p b : Nat}
  {bounds bounds' : Bounds} {s t : State}

variable {q : Nat} {stmt : Stmt} {r : Exec.Result Flow}

lemma Twin.moveTo (h : w.Twin bounds p s t) : w.Twin bounds q s (t.moveTo q) :=
  h.modify_right fun _ _ hf => ⟨hf.file, hf.result, hf.going, rfl, hf.labels, hf.locals, hf.held⟩

/-- **One statement of flat code,** which does what a first part of an action does. -/
theorem reaches_step {α : Type} (hstmt : w.code[p]? = some stmt) (htwin : w.Twin bounds p s t)
    {M : α → State → Option Nat → State → Prop} {first : Exec α}
    (hmirror : Mirror n M w.Beside (first s) fun k => execute m (call m k) stmt t)
    (hlimit : limit ≤ n) {rest : α → Exec Flow} (hrest : ∀ a s₁ jumped t₁, M a s₁ jumped t₁ →
      w.Reaches m limit bounds' b (rest a s₁) (t₁.moveTo (jumped.getD (p + 1)))) :
    w.Reaches m (limit + 1) bounds' b ((first >>= rest) s) t := by
  obtain ⟨f, f', -, ht, hf⟩ := htwin.frames
  obtain rfl := hf.position
  cases hfirst : first s with
  | ok a s₁ =>
    rw [hfirst] at hmirror
    rw [exec_bind_ok hfirst]
    obtain ⟨jumped, t₁, hM, enough, hk⟩ := hmirror
    exact (hrest a s₁ jumped t₁ hM).of_leadsOn (leadsOn_step ht hf.going hstmt hk)
  | error e =>
    rw [hfirst] at hmirror
    rw [exec_bind_error hfirst]
    cases e with
    | fault =>
      obtain ⟨t₁, hbeside, enough, hk⟩ := hmirror
      exact ⟨t₁, hbeside, finishes_step_fault ht hf.going hstmt hk⟩
    | outOfFuel =>
      intro k hle
      exact unsettled_step ht hf.going hstmt hmirror k (by omega)

/-- A statement without an effect leads to where the run goes on. -/
lemma leadsOn_silent (hstmt : w.code[p]? = some stmt) (htwin : w.Twin bounds p s t)
    {jumped : Option Nat} (hexecute : ∀ k, execute m (call m k) stmt t = .ok jumped t) :
    LeadsOn m w.code t (t.moveTo (jumped.getD (p + 1))) := by
  obtain ⟨f, f', -, ht, hf⟩ := htwin.frames
  obtain rfl := hf.position
  exact @leadsOn_step m w.code t t f' w.outer' stmt ht hf.going hstmt jumped 0 fun k _ => hexecute k

lemma leadsOn_label {label : Label} (hstmt : w.code[p]? = some (.label label))
    (htwin : w.Twin bounds p s t) : LeadsOn m w.code t (t.moveTo (p + 1)) :=
  @leadsOn_silent w m p bounds s t _ hstmt htwin none fun _ => rfl

lemma jump_run {label : Label} (hq : (labelPositions w.code)[label.index]? = some q)
    (htwin : w.Twin bounds p s t) : jump label t = .ok q t := by
  obtain ⟨f, f', -, ht, hf⟩ := htwin.frames
  refine jump_of_frames ht ?_
  rw [Frame.position?, hf.labels, hq]

lemma leadsOn_goto {label : Label} (hstmt : w.code[p]? = some (.goto label))
    (hq : (labelPositions w.code)[label.index]? = some q) (htwin : w.Twin bounds p s t) :
    LeadsOn m w.code t (t.moveTo q) :=
  @leadsOn_silent w m p bounds s t _ hstmt htwin (some q) fun _ =>
    exec_bind_ok (jump_run hq htwin) _

lemma Reaches.label {label : Label} (h : w.Reaches m limit bounds p r t)
    (hlabel : w.code[p]? = some (.label label)) : w.Reaches m limit bounds (p + 1) r t :=
  h.silent (List.Subset.refl _) fun _ t₁ htwin =>
    ⟨t₁.moveTo (p + 1), htwin.moveTo, (leadsOn_label hlabel htwin).leads⟩

lemma Reaches.goto {label : Label} (h : w.Reaches m limit bounds p r t)
    (hgoto : w.code[p]? = some (.goto label)) (hq : w.code[q]? = some (.label label)) :
    w.Reaches m limit bounds q r t :=
  h.silent (List.Subset.refl _) fun _ t₁ htwin =>
    ⟨t₁.moveTo q, htwin.moveTo, (leadsOn_goto hgoto (w.placed hq) htwin).leads⟩

end Steps

end Pairing

end Parcel
