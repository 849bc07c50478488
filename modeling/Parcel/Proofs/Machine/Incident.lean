import Parcel.Proofs.Strictness

/-!
# Faults of computations

A computation reports faults in two ways: it ends with one, or it recovers from some on its way.
Both are traced in the same manner through computations that follow one another: the fault is that
of the part in which it arises.
-/

namespace Parcel

/-- What is reported of a computation: the fault that it ends with, or the one from which it
recovers and that has this index among all. -/
inductive Incident where
  | failure
  | recovery (index : Nat)

/-- The fault that a computation ends with. -/
def failure? {α : Type} : Exec.Result α → Option Fault
  | .error (.fault f) _ => some f
  | .error .outOfFuel _ | .ok _ _ => none

def Incident.fault? {α : Type} (s : State) (result : Exec.Result α) :
    Incident → Option Fault
  | .failure => failure? result
  | .recovery index =>
    if index < s.recovered.size then none else (endState result).recovered[index]?

/-! ### Recoveries stay -/

/-- The computation keeps the faults from which there was a recovery before. -/
def Collects {α : Type} (c : Exec α) : Prop :=
  ∀ s, s.recovered.toList <+: (endState (c s)).recovered.toList

namespace Collects

variable {α β : Type}

lemma bind {c : Exec α} {next : α → Exec β} (hc : Collects c) (hnext : ∀ a, Collects (next a)) :
    Collects (c >>= next) := by
  intro s
  have hs := hc s
  cases h : c s with
  | ok a t =>
    rw [exec_bind_ok h]
    rw [h] at hs
    exact hs.trans (hnext a t)
  | error =>
    rw [exec_bind_error h]
    rwa [h] at hs

lemma forM {action : α → Exec Unit} (h : ∀ a, Collects (action a)) (l : List α) :
    Collects (l.forM action) := by
  induction l with
  | nil => exact fun s => List.prefix_rfl
  | cons a l ih => exact (h a).bind fun _ => ih

lemma size_le {c : Exec α} (h : Collects c) {s t : State} {a : α} (hc : c s = .ok a t) :
    s.recovered.size ≤ t.recovered.size := by
  have hs := (h s).length_le
  rwa [hc] at hs

/-- **A machine keeps the faults**, whatever it does. -/
theorem congruence (m : Machine) : Congruence .refl m m fun c _ => Collects c :=
  .ofRecovered (R := fun a b => a.toList <+: b.toList) (fun _ => List.prefix_rfl) List.IsPrefix.trans
    (fun _ f _ => ⟨[f], Array.toList_push.symm⟩) m

section Machine

variable (m : Machine) (fuel : Nat)

lemma call (f : FunctionSymbol) (arguments : List Value) (receiver : Option Value) :
    Collects (call m fuel f arguments receiver) :=
  (congruence m).call fuel f arguments receiver

lemma eval (e : Code.Expr) : Collects (eval m (Parcel.call m fuel) e) :=
  @Congruence.eval _ m m _ (congruence m) _ (Parcel.call m fuel) (call m fuel) e

lemma evalAll (es : List Code.Expr) : Collects (evalAll m (Parcel.call m fuel) es) :=
  @Congruence.evalAll _ m m _ (congruence m) _ (Parcel.call m fuel) (call m fuel) es

lemma execute (stmt : Code.Stmt) : Collects (execute m (Parcel.call m fuel) stmt) :=
  @Congruence.execute _ m m _ (congruence m) _ (Parcel.call m fuel) (call m fuel) stmt

lemma runCode (code : Array Code.Stmt) : Collects (runCode m fuel code) :=
  (congruence m).runCode fuel code

lemma runGroup (group : Code.GlobalGroup) : Collects (runGroup m fuel group) :=
  (congruence m).runGroup fuel group

end Machine

end Collects

/-! ### Parts of computations -/

namespace Incident

variable {α β : Type} {s t : State} {f : Fault} (incident : Incident)

lemma fault?_ok {a : α} (h : t.recovered = s.recovered) :
    incident.fault? s (.ok a t : Exec.Result α) = none := by
  cases incident with
  | failure => rfl
  | recovery index =>
    show (if index < s.recovered.size then none else t.recovered[index]?) = none
    rw [h]
    split
    · rfl
    · rw [Array.getElem?_eq_none_iff]
      omega

/-- The fault of what is started later is one of what is started before. -/
lemma fault?_of_le {result : Exec.Result α}
    (hle : s.recovered.size ≤ t.recovered.size) (h : incident.fault? t result = some f) :
    incident.fault? s result = some f := by
  cases incident with
  | failure => exact h
  | recovery =>
    simp only [fault?] at h ⊢
    split at h
    · cases h
    · rwa [if_neg (by omega)]

lemma fault?_error (s : State) (e : Halt) (t : State) (β : Type) :
    incident.fault? s (.error e t : Exec.Result α) =
      incident.fault? s (.error e t : Exec.Result β) := by
  cases incident with
  | failure => cases e <;> rfl
  | recovery => rfl

/-- **One computation after the other**: the fault is that of one of the two. -/
theorem fault?_bind (incident : Incident) {c : Exec α} {next : α → Exec β} (hc : Collects c)
    (hnext : ∀ a, Collects (next a)) :
    incident.fault? s ((c >>= next) s) = some f ↔
      incident.fault? s (c s) = some f ∨
        ∃ a t, c s = .ok a t ∧ incident.fault? t (next a t) = some f := by
  cases h : c s with
  | error e t =>
    rw [exec_bind_error h, fault?_error incident s e t α]
    refine ⟨.inl, fun hf => hf.resolve_right ?_⟩
    rintro ⟨a, u, ⟨⟩, -⟩
  | ok a t =>
    rw [exec_bind_ok h]
    have hright : (∃ a' t', (.ok a t : Exec.Result α) = .ok a' t' ∧
        incident.fault? t' (next a' t') = some f) ↔ incident.fault? t (next a t) = some f := by
      simp
    rw [hright]
    cases incident with
    | failure => simp [fault?, failure?]
    | recovery index =>
      have hsize := hc.size_le h
      have hend : endState (.ok a t : Exec.Result α) = t := rfl
      obtain ⟨faults, hfaults⟩ := hnext a t
      simp only [fault?, hend]
      by_cases hs : index < s.recovered.size
      · simp [hs, Nat.lt_of_lt_of_le hs hsize]
      · by_cases ht : index < t.recovered.size
        · -- the first part has recovered from it, and the second one keeps it
          have hkept : (endState (next a t)).recovered[index]? = t.recovered[index]? := by
            rw [← Array.getElem?_toList, ← Array.getElem?_toList, ← hfaults]
            exact List.getElem?_append_left ht
          simp [hs, ht, hkept]
        · simp [hs, ht]

/-- What is done at the end with the value alone has no incident. -/
lemma fault?_map {c : Exec α} (g : α → β) :
    incident.fault? s ((c >>= fun a => pure (g a)) s) = incident.fault? s (c s) := by
  cases h : c s with
  | ok =>
    rw [exec_bind_ok h]
    cases incident with
    | failure | recovery => rfl
  | error e t =>
    rw [exec_bind_error h]
    exact fault?_error incident s e t α

lemma fault?_withFrame (frame : Frame) (action : Exec Unit) :
    incident.fault? s (withFrame frame action s) =
      incident.fault? (s.onStack (·.push frame)) (action (s.onStack (·.push frame))) := by
  unfold withFrame
  cases action (s.onStack (·.push frame)) with
  | ok =>
    cases incident with
    | failure | recovery => rfl
  | error e =>
    cases incident with
    | failure => cases e <;> rfl
    | recovery => rfl

lemma fault?_forM {action : α → Exec Unit} (h : ∀ a, Collects (action a)) (l : List α) :
    incident.fault? s (l.forM action s) = some f ↔ ∃ before a after t, l = before ++ a :: after ∧
      before.forM action s = .ok () t ∧ incident.fault? t (action a t) = some f := by
  induction l generalizing s with
  | nil =>
    constructor
    · intro hf
      rw [show ([] : List α).forM action s = .ok () s from rfl, fault?_ok incident rfl] at hf
      cases hf
    · rintro ⟨before, a, after, t, hsplit, -, -⟩
      cases before <;> cases hsplit
  | cons a l ih =>
    have hparts := fault?_bind incident (s := s) (f := f) (h a) fun _ => Collects.forM h l
    refine hparts.trans ?_
    constructor
    · rintro (hf | ⟨⟨⟩, t, ha, hf⟩)
      · exact ⟨[], a, l, s, rfl, rfl, hf⟩
      · obtain ⟨before, b, after, u, rfl, hdone, hf⟩ := ih.mp hf
        exact ⟨a :: before, b, after, u, rfl, (exec_bind_ok ha _).trans hdone, hf⟩
    · rintro ⟨before, b, after, t, hsplit, hdone, hf⟩
      cases before with
      | nil =>
        cases hsplit
        cases hdone
        exact .inl hf
      | cons b' before =>
        cases hsplit
        obtain ⟨⟨⟩, u, ha, hrest⟩ := exists_of_exec_bind_ok hdone
        exact .inr ⟨(), u, ha, ih.mpr ⟨before, b, after, t, rfl, hrest, hf⟩⟩

/-- How a fault goes on through an expression: a failure is placed there, unless it has a place. -/
def placed (place : Place) (f : Fault) : Incident → Fault
  | .failure => f.placed place
  | .recovery _ => f

@[simp] lemma placed_cause (place : Place) (f : Fault) :
    (incident.placed place f).cause = f.cause := by
  cases incident <;> rfl

/-- **Placing**, if the file of the innermost frame stays the same. -/
theorem fault?_placing (incident : Incident) {c : Exec α} (span : Span)
    (hfile : ∀ g t, c s = .error (.fault g) t → t.file = s.file) :
    incident.fault? s (placing span c s) =
      (incident.fault? s (c s)).map fun g => incident.placed ⟨span, s.file⟩ g := by
  cases h : c s with
  | ok =>
    rw [placing_ok h]
    cases incident with
    | failure => rfl
    | recovery => exact Option.map_id'.symm
  | error e t =>
    cases e with
    | fault g =>
      rw [placing_fault h, hfile g t h]
      cases incident with
      | failure => rfl
      | recovery => exact Option.map_id'.symm
    | outOfFuel =>
      rw [placing_outOfFuel h]
      cases incident with
      | failure => rfl
      | recovery => exact Option.map_id'.symm

end Incident

/-! ### Plain computations -/

/-- The computation recovers from nothing, and its fault has no place yet. -/
structure Plain {α : Type} (c : Exec α) : Prop where
  recovered : ∀ s, (endState (c s)).recovered = s.recovered
  unplaced : ∀ s f t, c s = .error (.fault f) t → f.place = none

namespace Plain

variable {α β : Type}

lemma collects {c : Exec α} (h : Plain c) : Collects c :=
  fun s => ⟨[], by rw [List.append_nil, h.recovered s]⟩

lemma eq_failure {c : Exec α} (h : Plain c) {incident : Incident} {s : State} {f : Fault}
    (hf : incident.fault? s (c s) = some f) : incident = .failure ∧ f.place = none := by
  cases incident with
  | failure =>
    refine ⟨rfl, ?_⟩
    cases hc : c s with
    | ok =>
      rw [hc] at hf
      cases hf
    | error e t =>
      rw [hc] at hf
      cases e with
      | fault =>
        cases hf
        exact h.unplaced s f t hc
      | outOfFuel => cases hf
  | recovery =>
    simp only [Incident.fault?, h.recovered] at hf
    split at hf
    · cases hf
    next hle => exact absurd (Array.getElem?_eq_some_iff.mp hf).1 hle

lemma pure (a : α) : Plain (pure a : Exec α) where
  recovered _ := rfl
  unplaced _ _ _ h := by cases h

lemma fail (cause : FaultCause) : Plain (Exec.fail cause : Exec α) where
  recovered _ := rfl
  unplaced _ _ _ h := by
    cases h
    rfl

lemma ofExcept (result : Except FaultCause α) : Plain (Exec.ofExcept result) := by
  cases result with
  | ok a => exact .pure a
  | error cause => exact .fail cause

lemma onHeap (g : Heap → α × Heap) : Plain (Exec.onHeap g) where
  recovered _ := rfl
  unplaced _ _ _ h := by cases h

lemma modifyFrame (g : Frame → Frame) : Plain (Exec.modifyFrame g) where
  recovered _ := rfl
  unplaced _ _ _ h := by cases h

lemma bind {c : Exec α} {next : α → Exec β} (hc : Plain c) (hnext : ∀ a, Plain (next a)) :
    Plain (c >>= next) where
  recovered s := by
    have hs := hc.recovered s
    cases h : c s with
    | ok a t =>
      rw [h] at hs
      rw [exec_bind_ok h]
      exact ((hnext a).recovered t).trans hs
    | error =>
      rw [h] at hs
      rwa [exec_bind_error h]
  unplaced s f u hf := by
    cases h : c s with
    | ok a t =>
      rw [exec_bind_ok h] at hf
      exact (hnext a).unplaced t f u hf
    | error =>
      rw [exec_bind_error h] at hf
      cases hf
      exact hc.unplaced s f _ h

lemma get {next : State → Exec β} (h : ∀ s, Plain (next s)) : Plain (get >>= next) where
  recovered s := (h s).recovered s
  unplaced s f t hf := (h s).unplaced s f t hf

lemma mapM (l : List α) {action : α → Exec β} (h : ∀ a, Plain (action a)) :
    Plain (l.mapM action) := by
  induction l with
  | nil => exact .pure []
  | cons a l ih =>
    rw [List.mapM_cons]
    exact (h a).bind fun b => ih.bind fun bs => .pure (b :: bs)

lemma loadVar (v : Var) : Plain (loadVar v) := by
  refine .get fun s => ?_
  dsimp only
  split
  · exact .pure _
  · exact .fail _

lemma storeVar (v : Var) (value : Value) : Plain (storeVar v value) := by
  unfold Parcel.storeVar
  split
  · exact ⟨fun _ => rfl, fun _ _ _ h => by cases h⟩
  · refine .get fun s => ?_
    split
    · exact .modifyFrame _
    · exact .fail _

lemma jump (label : Label) : Plain (jump label) := by
  refine .get fun s => ?_
  split
  · exact .pure _
  · exact .fail _

lemma setDefault (m : Machine) (v : Var) : Plain (setDefault m v) :=
  (Plain.onHeap _).bind fun _ => ⟨fun _ => rfl, fun _ _ _ h => by cases h⟩

lemma native (native : Native) (receiver : Option Value) (arguments : List Value) :
    Plain (native.invoke receiver arguments) := by
  have htext := Plain.ofExcept (Native.textArgument arguments)
  have hask (transfer : Transfer) : Plain (Exec.ask transfer) :=
    ⟨fun _ => rfl, fun _ _ _ h => by cases h⟩
  have hemit (text : String) : Plain (Native.emit text) := by
    unfold Native.emit
    split
    · exact .pure ()
    · refine (hask _).bind fun refusal? => ?_
      cases refusal? with
      | none => exact .pure ()
      | some => exact .fail _
  have hbuffer (receiver : Value) (change : String → String) (result : String → Value) :
      Plain (Native.onBuffer receiver change result) := by
    unfold Native.onBuffer
    split
    · exact .onHeap _
    · exact .fail _
  have hreceiver {method : Value → Exec Value} (h : ∀ v, Plain (method v)) :
      Plain (Native.onReceiver receiver method) := by
    cases receiver with
    | none => exact .fail _
    | some v => exact h v
  cases native with
  | print => exact htext.bind fun text => (hemit text).bind fun _ => (hemit "\n").bind fun _ => .pure _
  | write => exact htext.bind fun text => (hemit text).bind fun _ => .pure _
  | exit =>
    refine (Plain.ofExcept _).bind fun code => (hask .flush).bind fun refusal? => ?_
    cases refusal? with
    | none | some reason => exact .fail _
  | sqrt | abs => exact .ofExcept _
  | builder => exact .onHeap _
  | append => exact hreceiver fun v => htext.bind fun _ => hbuffer v _ _
  | build | length | clear => exact hreceiver fun v => hbuffer v _ _

end Plain

end Parcel
