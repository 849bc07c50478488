import Parcel.Proofs.Direct.Exec
import Parcel.Proofs.Machine.Contract
import Parcel.Proofs.Machine.Steady

/-!
# Two executions side by side

The direct execution of a body and the run of its flat code go through states that are alike but for
the innermost frame. There the run of flat code has a position, and variables of its own: the bounds
of counting loops, which direct execution holds as values.
-/

namespace Parcel

variable {R : State → State → Prop} {allowed : FaultCause → Prop}

/-! ### Variables below a limit -/

namespace Store

/-- The variables whose ids are below a limit. -/
def below (limit : Nat) (store : Store) : Store :=
  store.filter fun entry => entry.1.index < limit

variable {limit : Nat} (store : Store) {id : VarId} (value : Value)

lemma below_cons (entry : VarId × Value) : Store.below limit (entry :: store) =
    if entry.1.index < limit then entry :: store.below limit else store.below limit := by
  simp only [below, List.filter_cons, decide_eq_true_eq]

lemma get?_below (h : id.index < limit) : (store.below limit).get? id = store.get? id := by
  induction store with
  | nil => rfl
  | cons entry rest ih =>
    rw [below_cons]
    by_cases hentry : entry.1 = id
    · rw [if_pos (hentry ▸ h), get?, if_pos hentry, get?, if_pos hentry]
    · by_cases hlt : entry.1.index < limit
      · rw [if_pos hlt, get?, if_neg hentry, get?, if_neg hentry, ih]
      · rw [if_neg hlt, ih, get?, if_neg hentry]

lemma below_set (h : id.index < limit) :
    (store.set id value).below limit = (store.below limit).set id value := by
  induction store with
  | nil => simp [set, below, h]
  | cons entry rest ih =>
    by_cases hentry : entry.1 = id
    · have hlt : entry.1.index < limit := hentry ▸ h
      rw [set, if_pos hentry, below_cons, below_cons, if_pos h, if_pos hlt, set, if_pos hentry]
    · by_cases hlt : entry.1.index < limit
      · rw [set, if_neg hentry, below_cons, below_cons, if_pos hlt, if_pos hlt, set, if_neg hentry,
          ih]
      · rw [set, if_neg hentry, below_cons, below_cons, if_neg hlt, if_neg hlt, ih]

lemma below_set_of_le (h : limit ≤ id.index) :
    (store.set id value).below limit = store.below limit := by
  have hnot : ¬ id.index < limit := Nat.not_lt.mpr h
  induction store with
  | nil => simp [set, below, h]
  | cons entry rest ih =>
    by_cases hentry : entry.1 = id
    · have hnot' : ¬ entry.1.index < limit := hentry ▸ hnot
      rw [set, if_pos hentry, below_cons, below_cons, if_neg hnot, if_neg hnot']
    · rw [set, if_neg hentry, below_cons, below_cons, ih]

lemma below_erase (h : id.index < limit) :
    (store.erase id).below limit = (store.below limit).erase id := by
  induction store with
  | nil => rfl
  | cons entry rest ih =>
    by_cases hentry : entry.1 = id
    · have hlt : entry.1.index < limit := hentry ▸ h
      rw [erase, if_pos hentry, below_cons, if_pos hlt, erase, if_pos hentry]
    · by_cases hlt : entry.1.index < limit
      · rw [erase, if_neg hentry, below_cons, below_cons, if_pos hlt, if_pos hlt, erase,
          if_neg hentry, ih]
      · rw [erase, if_neg hentry, below_cons, below_cons, if_neg hlt, if_neg hlt, ih]

lemma below_erase_of_le (h : limit ≤ id.index) :
    (store.erase id).below limit = store.below limit := by
  induction store with
  | nil => rfl
  | cons entry rest ih =>
    by_cases hentry : entry.1 = id
    · have hnot : ¬ entry.1.index < limit := Nat.not_lt.mpr (hentry ▸ h)
      rw [erase, if_pos hentry, below_cons, if_neg hnot]
    · rw [erase, if_neg hentry, below_cons, below_cons, ih]

end Store

/-! ### States that are alike -/

/-- States that differ in their frames at most. -/
structure Alike (s t : State) : Prop where
  globals : s.globals = t.globals
  heap : s.heap = t.heap
  recovered : s.recovered = t.recovered
  sink : s.sink = t.sink

/-- States that are alike, with given frames. -/
structure Level (frames frames' : List Frame) (s t : State) : Prop where
  alike : Alike s t
  left : s.stack.frames = frames
  right : t.stack.frames = frames'

/-- Frames on top of which calls go alike: equally many, and of the same source file. -/
structure SameDepth (frames frames' : List Frame) : Prop where
  length : frames.length = frames'.length
  file : (frames.head?.bind (·.file)) = frames'.head?.bind (·.file)

/-- A call is executed directly as flat code runs it, once it has enough fuel; and direct execution
needs no more fuel than the run of flat code. -/
def Corresponds (m m' : Machine) (n : Nat) : Prop :=
  ∀ frames frames', SameDepth frames frames' → ∀ f arguments receiver,
    Follows (Level frames frames') (fun _ => True) (callTree m n f arguments receiver)
      (fun k => call m' k f arguments receiver) ∧
    ∀ k ≤ n, Follows (fun t s => Level frames frames' s t) (fun _ => True)
      (call m' k f arguments receiver) (fun _ => callTree m n f arguments receiver)

lemma Agrees.mono {α : Type} {R' : State → State → Prop} {r r' : Exec.Result α}
    (h : Agrees R allowed r r') (hR : ∀ s t, R s t → R' s t) : Agrees R' allowed r r' := by
  cases h with
  | ok a h => exact .ok a (hR _ _ h)
  | fault hcause h => exact .fault hcause (hR _ _ h)

lemma Coupled.flip {touches : Code.Access → Prop} (h : Coupled R touches allowed) :
    Coupled (fun t s => R s t) touches allowed where
  heap hR := (h.heap hR).symm
  sink hR := (h.sink hR).symm
  file hR := (h.file hR).symm
  setHeap heap hR := h.setHeap heap hR
  setSink sink hR := h.setSink sink hR
  addRecovered f hR := h.addRecovered f hR
  read hR hv := ⟨(h.read hR hv).1.symm, fun hnone => (h.read hR hv).2 ((h.read hR hv).1.trans hnone)⟩
  write value hR hv := by
    obtain ⟨heq, hnone, hassign⟩ := h.write value hR hv
    exact ⟨heq.symm, fun hfalse => hnone (heq.trans hfalse), fun htrue => hassign (heq.trans htrue)⟩
  ofOperation := h.ofOperation

lemma coupled_level {frames frames' : List Frame} (h : SameDepth frames frames') :
    Coupled (Level frames frames') (fun _ => False) fun _ => True where
  heap hst := hst.alike.heap
  sink hst := hst.alike.sink
  file := by
    rintro s t ⟨-, rfl, rfl⟩
    exact h.file
  setHeap _ hst := ⟨⟨hst.alike.globals, rfl, hst.alike.recovered, hst.alike.sink⟩, hst.left,
    hst.right⟩
  setSink _ hst := ⟨⟨hst.alike.globals, hst.alike.heap, hst.alike.recovered, rfl⟩, hst.left,
    hst.right⟩
  addRecovered f hst := ⟨⟨hst.alike.globals, hst.alike.heap,
    congrArg (·.push f) hst.alike.recovered, hst.alike.sink⟩, hst.left, hst.right⟩
  read _ hv := hv.elim
  write _ _ hv := hv.elim
  ofOperation _ _ := trivial

/-! ### Bodies -/

/-- A body in both executions. -/
structure Pairing where
  /-- The flat code. -/
  code : Array Code.Stmt
  /-- No label stands twice in the flat code. -/
  placed {q : Nat} {label : Label} : code[q]? = some (.label label) →
    (labelPositions code)[label.index]? = some q
  /-- The first id of the variables that only flat code has. -/
  hidden : Nat
  /-- The frames of the callers in direct execution. -/
  outer : List Frame
  /-- The frames of the callers in the run of flat code. -/
  outer' : List Frame
  length_eq : outer.length = outer'.length

/-- Hidden variables with their values. -/
abbrev Bounds := List (VarId × Value)

/-- Only flat code has the variables. -/
abbrev Pairing.Hides (w : Pairing) (bounds : Bounds) : Prop :=
  ∀ entry ∈ bounds, w.hidden ≤ entry.1.index

/-- The innermost frames of the two executions at a position of the flat code. -/
structure Pairing.Frames (w : Pairing) (bounds : Bounds) (p : Nat) (f f' : Frame) : Prop where
  file : f.file = f'.file
  result : f.result = f'.result
  going : f'.returned = false
  position : f'.position = p
  labels : f'.labels = labelPositions w.code
  locals : f.locals.below w.hidden = f'.locals.below w.hidden
  held : ∀ entry ∈ bounds, f'.locals.get? entry.1 = some entry.2

/-- The states of the two executions at a position of the flat code. -/
structure Pairing.Twin (w : Pairing) (bounds : Bounds) (p : Nat) (s t : State) : Prop where
  alike : Alike s t
  frames : ∃ f f', s.stack.frames = f :: w.outer ∧ t.stack.frames = f' :: w.outer' ∧
    w.Frames bounds p f f'

/-- The states after a test, which in flat code jumps to a position if it comes out true. -/
abbrev Pairing.Branched (w : Pairing) (bounds : Bounds) (p q : Nat) (taken : Bool) (s : State)
    (jumped : Option Nat) (t : State) : Prop :=
  jumped = (if taken then some q else none) ∧ w.Twin bounds p s t

/-- The states of the two executions after a fault. -/
structure Pairing.Beside (w : Pairing) (s t : State) : Prop where
  alike : Alike s t
  left : s.stack.frames.tail = w.outer
  right : t.stack.frames.tail = w.outer'

/-- A variable that both executions have. -/
def Pairing.Shares (w : Pairing) (v : Var) : Prop :=
  v.isGlobal = true ∨ v.id.index < w.hidden

/-- A variable that is touched is one that both executions have. -/
def Pairing.SharesAccess (w : Pairing) (a : Code.Access) : Prop :=
  ∀ v ∈ a.var?, w.Shares v

namespace Pairing

variable {w : Pairing} {bounds bounds' : Bounds} {p : Nat} {s t : State}

lemma Twin.beside (h : w.Twin bounds p s t) : w.Beside s t := by
  obtain ⟨f, f', hs, ht, -⟩ := h.frames
  exact ⟨h.alike, by rw [hs, List.tail_cons], by rw [ht, List.tail_cons]⟩

lemma Twin.of_subset (h : w.Twin bounds p s t) (hsub : bounds' ⊆ bounds) :
    w.Twin bounds' p s t := by
  obtain ⟨f, f', hs, ht, hf⟩ := h.frames
  exact ⟨h.alike, f, f', hs, ht, hf.file, hf.result, hf.going, hf.position, hf.labels, hf.locals,
    fun entry hentry => hf.held entry (hsub hentry)⟩

lemma Twin.sameDepth (h : w.Twin bounds p s t) : SameDepth s.stack.frames t.stack.frames := by
  obtain ⟨f, f', hs, ht, hf⟩ := h.frames
  rw [hs, ht]
  exact ⟨by rw [List.length_cons, List.length_cons, w.length_eq], hf.file⟩

lemma Twin.level (h : w.Twin bounds p s t) :
    Level s.stack.frames t.stack.frames s t :=
  ⟨h.alike, rfl, rfl⟩

lemma Twin.of_level (h : w.Twin bounds p s t) {s' t' : State}
    (hlevel : Level s.stack.frames t.stack.frames s' t') : w.Twin bounds p s' t' := by
  obtain ⟨f, f', hs, ht, hf⟩ := h.frames
  exact ⟨hlevel.alike, f, f', hlevel.left.trans hs, hlevel.right.trans ht, hf⟩

lemma Twin.modify (h : w.Twin bounds p s t) {g g' : Frame → Frame} {q : Nat}
    (hg : ∀ f f', w.Frames bounds p f f' → w.Frames bounds' q (g f) (g' f')) :
    w.Twin bounds' q (s.onStack (·.modifyTop g)) (t.onStack (·.modifyTop g')) := by
  obtain ⟨f, f', hs, ht, hf⟩ := h.frames
  exact ⟨⟨h.alike.globals, h.alike.heap, h.alike.recovered, h.alike.sink⟩, g f, g' f',
    frames_modifyTop hs g, frames_modifyTop ht g', hg f f' hf⟩

/-- A change of the innermost frame of flat code alone. -/
lemma Twin.modify_right (h : w.Twin bounds p s t) {g : Frame → Frame} {q : Nat}
    (hg : ∀ f f', w.Frames bounds p f f' → w.Frames bounds' q f (g f')) :
    w.Twin bounds' q s (t.onStack (·.modifyTop g)) := by
  obtain ⟨f, f', hs, ht, hf⟩ := h.frames
  exact ⟨⟨h.alike.globals, h.alike.heap, h.alike.recovered, h.alike.sink⟩, f, g f', hs,
    frames_modifyTop ht g, hg f f' hf⟩

/-- Both executions store in a variable that they share; the hidden ones stay as they are. -/
lemma Twin.assign (h : w.Twin bounds p s t) {v : Var} (hv : w.Shares v)
    (hbounds : w.Hides bounds) (value : Value) :
    w.Twin bounds p (s.assign v value) (t.assign v value) := by
  unfold State.assign
  cases hglobal : v.isGlobal with
  | true =>
    obtain ⟨f, f', hs, ht, hf⟩ := h.frames
    exact ⟨⟨congrArg (·.set v.id value) h.alike.globals, h.alike.heap, h.alike.recovered,
      h.alike.sink⟩, f, f', hs, ht, hf⟩
  | false =>
    have hlt : v.id.index < w.hidden := hv.resolve_left (by rw [hglobal]; exact Bool.false_ne_true)
    refine h.modify fun f f' hf => ⟨hf.file, hf.result, hf.going, hf.position, hf.labels, ?_, ?_⟩
    · show (f.locals.set v.id value).below w.hidden = (f'.locals.set v.id value).below w.hidden
      rw [Store.below_set _ _ hlt, Store.below_set _ _ hlt, hf.locals]
    · intro entry hentry
      have hne : v.id ≠ entry.1 := fun heq =>
        Nat.not_lt.mpr (hbounds entry hentry) (heq ▸ hlt)
      show (f'.locals.set v.id value).get? entry.1 = _
      rw [Store.get?_set, if_neg hne, hf.held entry hentry]

lemma Twin.value?_eq (h : w.Twin bounds p s t) {v : Var} (hv : w.Shares v) :
    s.value? v = t.value? v := by
  obtain ⟨f, f', hs, ht, hf⟩ := h.frames
  unfold State.value?
  cases hglobal : v.isGlobal with
  | true => rw [if_pos rfl, if_pos rfl, h.alike.globals]
  | false =>
    have hlt : v.id.index < w.hidden := hv.resolve_left (by rw [hglobal]; exact Bool.false_ne_true)
    rw [if_neg Bool.false_ne_true, if_neg Bool.false_ne_true, top?_of_frames hs, top?_of_frames ht,
      Option.bind_some, Option.bind_some, ← Store.get?_below _ hlt, hf.locals,
      Store.get?_below _ hlt]

lemma Twin.holds (h : w.Twin bounds p s t) (v : Var) : s.holds v = true ∧ t.holds v = true := by
  obtain ⟨f, f', hs, ht, -⟩ := h.frames
  exact ⟨holds_of_frames hs v, holds_of_frames ht v⟩

/-- Expressions that touch only what both executions have are evaluated alike. -/
lemma coupled_twin (hbounds : w.Hides bounds) :
    Coupled (w.Twin bounds p) w.SharesAccess fun _ => True where
  heap h := h.alike.heap
  sink h := h.alike.sink
  file h := h.sameDepth.file
  setHeap _ h := ⟨⟨h.alike.globals, rfl, h.alike.recovered, h.alike.sink⟩, h.frames⟩
  setSink _ h := ⟨⟨h.alike.globals, h.alike.heap, h.alike.recovered, rfl⟩, h.frames⟩
  addRecovered f h := ⟨⟨h.alike.globals, h.alike.heap, congrArg (·.push f) h.alike.recovered,
    h.alike.sink⟩, h.frames⟩
  read h hv := ⟨h.value?_eq (hv _ rfl), fun _ => trivial⟩
  write value h hv := ⟨(h.holds _).1.trans (h.holds _).2.symm, fun _ => trivial,
    fun _ => h.assign (hv _ rfl) hbounds value⟩
  ofOperation _ _ := trivial

end Pairing

/-! ### Results of both executions -/

/-- How the family ends, if the computation ends with a result: with related values and states once
it has enough fuel, or with the same fault; and if the computation lacks fuel, the family lacks it
too as long as it has no more than `n`. -/
def Mirror {α β : Type} (n : Nat) (post : α → State → β → State → Prop)
    (err : State → State → Prop) (r : Exec.Result α)
    (family : Nat → Exec.Result β) : Prop :=
  match r with
  | .ok a s => ∃ b t, post a s b t ∧ ∃ enough, ∀ k, enough ≤ k → family k = .ok b t
  | .error (.fault f) s =>
    ∃ t, err s t ∧ ∃ enough, ∀ k, enough ≤ k → family k = .error (.fault f) t
  | .error .outOfFuel _ => ∀ k, k ≤ n → Unsettled (family k)

section Mirror

variable {α β γ δ : Type} {n : Nat} {err : State → State → Prop} {s t : State}

variable {post : α → State → β → State → Prop} {c : Exec α}

lemma Mirror.ok {a : α} {b : β} (h : post a s b t) :
    Mirror n post err (.ok a s) fun _ => .ok b t :=
  ⟨b, t, h, 0, fun _ _ => rfl⟩

lemma Mirror.fault {f : Fault} (h : err s t) :
    Mirror n post err (.error (.fault f) s) fun _ => .error (.fault f) t :=
  ⟨t, h, 0, fun _ _ => rfl⟩

/-- **One computation after the other.** -/
theorem Mirror.bind {M : α → State → β → State → Prop} {post : γ → State → δ → State → Prop}
    {c' : Nat → Exec β} {next : α → Exec γ} {next' : Nat → β → Exec δ}
    (h : Mirror n M err (c s) fun k => c' k t) (hsteady : Steady c')
    (hnext : ∀ a s₁ b t₁, M a s₁ b t₁ → Mirror n post err (next a s₁) fun k => next' k b t₁) :
    Mirror n post err ((c >>= next) s) fun k => (c' k >>= next' k) t := by
  cases hc : c s with
  | ok a s₁ =>
    rw [hc] at h
    obtain ⟨b, t₁, hM, enough, hk⟩ := h
    have hrest := hnext a s₁ b t₁ hM
    rw [exec_bind_ok hc]
    generalize next a s₁ = result at hrest
    match result with
    | .ok x s₂ =>
      obtain ⟨y, t₂, hpost, enough', hk'⟩ := hrest
      refine ⟨y, t₂, hpost, max enough enough', fun k hle => ?_⟩
      have hfirst := exec_bind_ok (hk k (Nat.le_trans (Nat.le_max_left _ _) hle)) (next' k)
      exact hfirst.trans (hk' k (Nat.le_trans (Nat.le_max_right _ _) hle))
    | .error (.fault f) s₂ =>
      obtain ⟨t₂, herr, enough', hk'⟩ := hrest
      refine ⟨t₂, herr, max enough enough', fun k hle => ?_⟩
      have hfirst := exec_bind_ok (hk k (Nat.le_trans (Nat.le_max_left _ _) hle)) (next' k)
      exact hfirst.trans (hk' k (Nat.le_trans (Nat.le_max_right _ _) hle))
    | .error .outOfFuel s₂ =>
      intro k hle
      by_cases hsettled : Unsettled (c' k t)
      · exact unsettled_bind hsettled _
      · show Unsettled ((c' k >>= next' k) t)
        rw [exec_bind_ok (hsteady.eq_of_eventually hk hsettled)]
        exact hrest k hle
  | error e =>
    rw [hc] at h
    rw [exec_bind_error hc]
    cases e with
    | fault =>
      obtain ⟨t₁, herr, enough, hk⟩ := h
      exact ⟨t₁, herr, enough, fun k hle => exec_bind_error (hk k hle) _⟩
    | outOfFuel => exact fun k hle => unsettled_bind (h k hle) _

lemma mirror_of_follows {c' : Nat → Exec α} (hforth : Follows R (fun _ => True) c c')
    (hback : ∀ k ≤ n, Follows (fun t s => R s t) (fun _ => True) (c' k) fun _ => c) (hR : R s t) :
    Mirror n (fun a s b t => a = b ∧ R s t) R (c s) fun k => c' k t := by
  rcases hforth s t hR with ⟨s', hfuel⟩ | ⟨r, hagree, enough, hk⟩
  · rw [hfuel]
    intro k hle
    rcases hback k hle t s hR with hfuel' | ⟨r, hagree, enough, hk⟩
    · exact hfuel'
    · have heq : c s = r := hk enough (Nat.le_refl _)
      rw [← heq, hfuel] at hagree
      generalize c' k t = result at hagree
      cases hagree
  · generalize c s = result at hagree
    cases hagree with
    | ok a h => exact ⟨a, _, ⟨rfl, h⟩, enough, hk⟩
    | fault _ h => exact ⟨_, h, enough, hk⟩

end Mirror

namespace Pairing

variable {w : Pairing} {bounds : Bounds} {p n : Nat} {m : Machine} {program : Code.Program}

lemma follows_callTree (hcalls : Corresponds m (m.withProgram program) n)
    (f : FunctionSymbol) (arguments : List Value) (receiver : Option Value) :
    Follows (w.Twin bounds p) (fun _ => True) (callTree m n f arguments receiver) fun k =>
      call (m.withProgram program) k f arguments receiver := by
  intro s t h
  refine ((hcalls _ _ h.sameDepth f arguments receiver).1 s t h.level).imp_right ?_
  rintro ⟨r, hagree, hk⟩
  exact ⟨r, hagree.mono fun _ _ => h.of_level, hk⟩

lemma follows_call (hcalls : Corresponds m (m.withProgram program) n) {k : Nat} (hle : k ≤ n)
    (f : FunctionSymbol) (arguments : List Value) (receiver : Option Value) :
    Follows (fun t s => w.Twin bounds p s t) (fun _ => True)
      (call (m.withProgram program) k f arguments receiver) fun _ =>
        callTree m n f arguments receiver := by
  intro t s h
  refine ((hcalls _ _ h.sameDepth f arguments receiver).2 k hle t s h.level).imp_right ?_
  rintro ⟨r, hagree, hk⟩
  exact ⟨r, hagree.mono fun _ _ => h.of_level, hk⟩

/-- **Expressions** go alike in both executions. -/
theorem mirror_eval (hcalls : Corresponds m (m.withProgram program) n)
    (hbounds : w.Hides bounds) {e : Code.Expr}
    (he : ∀ a ∈ e.accesses, w.SharesAccess a) {s t : State} (h : w.Twin bounds p s t) :
    Mirror n (fun a s b t => a = b ∧ w.Twin bounds p s t) (w.Twin bounds p)
      (eval m (callTree m n) e s) fun k =>
        eval (m.withProgram program) (call (m.withProgram program) k) e t := by
  have hcoupled := coupled_twin (p := p) hbounds
  refine mirror_of_follows ?_ (fun k hle => ?_) h
  · exact follows_eval hcoupled m program (fun f arguments receiver _ =>
      follows_callTree hcalls f arguments receiver) e he
  · exact follows_eval hcoupled.flip (m.withProgram program) m.program
      (fun f arguments receiver _ => follows_call hcalls hle f arguments receiver) e he

end Pairing

end Parcel
