import Parcel.Proofs.Machine.Follows

/-!
# What computations keep

A triple says in which states a computation may be started, in which it ends, and which faults it
may end with. A call keeps the frames of its callers, whatever it does in its own.
-/

namespace Parcel

open Code List

variable {m : Machine} {invoke : Invoke} {G : Store → Prop} {frames : List Frame}
  {allowed : FaultCause → Prop}

/-- How a computation may end: with a value and a state of which `J` holds, or with a fault of an
allowed cause in a state of which `E` holds, or without fuel. -/
def Ends {α : Type} (allowed : FaultCause → Prop) (E : State → Prop) (J : α → State → Prop) :
    Exec.Result α → Prop
  | .ok a s => J a s
  | .error (.fault f) s => allowed f.cause ∧ E s
  | .error .outOfFuel _ => True

/-- From every state of which `I` holds the computation ends as `J` and `E` say. -/
def Triple {α : Type} (allowed : FaultCause → Prop) (E : State → Prop) (I : State → Prop)
    (c : Exec α) (J : α → State → Prop) : Prop :=
  ∀ s, I s → Ends allowed E J (c s)

/-- The computation keeps a property of states, and its faults are allowed. -/
def Safe {α : Type} (I : State → Prop) (allowed : FaultCause → Prop) (c : Exec α) : Prop :=
  Triple allowed I I c fun _ => I

section Rules

variable {α β : Type} {allowed : FaultCause → Prop} {E I : State → Prop}

variable {J : α → State → Prop} {c : Exec α}

lemma triple_pure {a : α} (h : ∀ s, I s → J a s) : Triple allowed E I (pure a) J :=
  h

lemma triple_fail {cause : FaultCause} (hcause : allowed cause) (h : ∀ s, I s → E s) :
    Triple allowed E I (Exec.fail cause) J :=
  fun s hs => ⟨hcause, h s hs⟩

lemma Triple.bind {next : α → Exec β} {M : α → State → Prop} {J : β → State → Prop}
    (hc : Triple allowed E I c M) (hnext : ∀ a, Triple allowed E (M a) (next a) J) :
    Triple allowed E I (c >>= next) J := by
  intro s hs
  have hends := hc s hs
  cases h : c s with
  | ok a s' =>
    rw [h] at hends
    rw [exec_bind_ok h]
    exact hnext a s' hends
  | error e =>
    rw [h] at hends
    rw [exec_bind_error h]
    cases e with
    | fault => exact hends
    | outOfFuel => trivial

lemma Ends.mono {E' : State → Prop} {J' : α → State → Prop} {r : Exec.Result α}
    (h : Ends allowed E J r) (hE : ∀ s, E s → E' s) (hJ : ∀ a s, J a s → J' a s) :
    Ends allowed E' J' r := by
  match r with
  | .ok a s => exact hJ a s h
  | .error (.fault f) s => exact ⟨h.1, hE s h.2⟩
  | .error .outOfFuel s => trivial

lemma safe_forM (l : List α) {action : α → Exec Unit}
    (hl : ∀ a ∈ l, Safe I allowed (action a)) : Safe I allowed (l.forM action) := by
  induction l with
  | nil => exact triple_pure fun _ hs => hs
  | cons a l ih =>
    exact Triple.bind (hl a mem_cons_self) fun _ =>
      ih fun b hb => hl b (mem_cons_of_mem _ hb)

lemma triple_mapM (l : List α) {action : α → Exec β}
    (hl : ∀ a ∈ l, Safe I allowed (action a)) :
    Triple allowed I I (l.mapM action) fun values s => values.length = l.length ∧ I s := by
  induction l with
  | nil => exact triple_pure fun _ hs => ⟨rfl, hs⟩
  | cons a l ih =>
    rw [mapM_cons]
    refine Triple.bind (hl a mem_cons_self) fun value => ?_
    refine Triple.bind (ih fun b hb => hl b (mem_cons_of_mem _ hb)) fun values => ?_
    refine triple_pure fun s hs => ⟨?_, hs.2⟩
    rw [length_cons, length_cons, hs.1]

lemma safe_iff_follows :
    Safe I allowed c ↔ Follows (fun s t => s = t ∧ I s) allowed c fun _ => c := by
  constructor
  · rintro h s t ⟨rfl, hs⟩
    have hends := h s hs
    cases hcs : c s with
    | ok a s' =>
      rw [hcs] at hends
      exact .inr ⟨.ok a s', .ok a ⟨rfl, hends⟩, 0, fun _ _ => hcs⟩
    | error e s' =>
      rw [hcs] at hends
      cases e with
      | fault => exact .inr ⟨_, .fault hends.1 ⟨rfl, hends.2⟩, 0, fun _ _ => hcs⟩
      | outOfFuel => exact .inl ⟨s', rfl⟩
  · intro h s hs
    rcases h s s ⟨rfl, hs⟩ with ⟨s', hfuel⟩ | ⟨r, hagree, -, -⟩
    · rw [hfuel]
      trivial
    · generalize c s = result at hagree
      cases hagree with
      | ok a h => exact h.2
      | fault hcause h => exact ⟨hcause, h.2⟩

end Rules

/-! ### Expressions -/

/-- A property of states that the evaluation of expressions keeps, if every variable that they touch
may be touched. -/
structure Kept (I : State → Prop) (touches : Access → Prop) (allowed : FaultCause → Prop) :
    Prop where
  setHeap : ∀ {s : State} (heap : Heap), I s → I { s with heap }
  setSink : ∀ {s : State} (sink : Sink), I s → I { s with sink }
  addRecovered : ∀ {s : State} (f : Fault), I s → I (s.addRecovered f)
  read : ∀ {s : State} {v : Var}, I s → touches (.read v) → s.value? v = none →
    allowed (.unresolvedVariable v.name)
  write : ∀ {s : State} {v : Var} (value : Value), I s → touches (.write v) →
    (s.holds v = false → allowed (.unresolvedVariable v.name)) ∧
    (s.holds v = true → I (s.assign v value))
  ofOperation : ∀ cause : FaultCause, cause.ofOperation = true → allowed cause

lemma Kept.coupled {I : State → Prop} {touches : Access → Prop} (hI : Kept I touches allowed) :
    Coupled (fun s t => s = t ∧ I s) touches allowed where
  heap h := h.1 ▸ rfl
  sink h := h.1 ▸ rfl
  file h := h.1 ▸ rfl
  setHeap heap h := ⟨h.1 ▸ rfl, hI.setHeap heap h.2⟩
  setSink sink h := ⟨h.1 ▸ rfl, hI.setSink sink h.2⟩
  addRecovered f h := ⟨h.1 ▸ rfl, hI.addRecovered f h.2⟩
  read h hv := ⟨h.1 ▸ rfl, hI.read h.2 hv⟩
  write value h hv := ⟨h.1 ▸ rfl, (hI.write value h.2 hv).1,
    fun hholds => ⟨h.1 ▸ rfl, (hI.write value h.2 hv).2 hholds⟩⟩
  ofOperation := hI.ofOperation

/-- **Expressions are safe** if the calls in them are and the variables that they touch may be
touched. -/
theorem safe_eval {I : State → Prop} {touches : Access → Prop} {allowed : FaultCause → Prop}
    (hI : Kept I touches allowed) (m : Machine)
    (hinvoke : ∀ f arguments receiver, touches (.call f arguments.length) →
      Safe I allowed (invoke f arguments receiver)) (e : Expr)
    (he : ∀ a ∈ e.accesses, touches a) : Safe I allowed (eval m invoke e) :=
  safe_iff_follows.mpr (follows_eval hI.coupled m m.program
    (fun f arguments receiver hf => safe_iff_follows.mp (hinvoke f arguments receiver hf)) e he)

namespace Kept

variable {α : Type} {I : State → Prop} {touches : Access → Prop}
  {allowed : FaultCause → Prop} (hI : Kept I touches allowed)
include hI

lemma native (m : Machine) (native : Native) (receiver : Option Value) (arguments : List Value) :
    Safe I allowed (native.invoke receiver arguments) :=
  safe_iff_follows.mpr (hI.coupled.native m native receiver arguments)

lemma onHeap (f : Heap → α × Heap) : Safe I allowed (Exec.onHeap f) :=
  safe_iff_follows.mpr (hI.coupled.onHeap f)

lemma ofExcept {result : Except FaultCause α} (h : Operational result) :
    Safe I allowed (Exec.ofExcept result) :=
  safe_iff_follows.mpr (hI.coupled.ofExcept h)

lemma loadVar {v : Var} (hv : touches (.read v)) : Safe I allowed (loadVar v) :=
  safe_iff_follows.mpr (hI.coupled.loadVar hv)

lemma storeVar {v : Var} (hv : touches (.write v)) (value : Value) :
    Safe I allowed (storeVar v value) :=
  safe_iff_follows.mpr (hI.coupled.storeVar hv value)

end Kept

/-! ### Statements -/

/-- **A statement ends as it should** if the changes that it makes itself do: those of a
declaration, a return, a deletion and a jump. All others leave what is kept, which has to be enough
then. -/
theorem triple_execute {I E : State → Prop} {touches : Access → Prop}
    {allowed : FaultCause → Prop} {J : Option Nat → State → Prop} {stmt : Stmt}
    (kept : Kept I touches allowed) (hE : ∀ s, I s → E s)
    (hinvoke : ∀ f arguments receiver, touches (.call f arguments.length) →
      Safe I allowed (invoke f arguments receiver)) (haccesses : ∀ a ∈ stmt.ownAccesses, touches a)
    (hdeclare : ∀ v initializer, stmt = .declare v initializer → ∀ value,
      Triple allowed E I (storeVar v value) fun _ => J none)
    (hret : ∀ value, stmt = .ret value → ∀ result : Frame → Value, Triple allowed E I
      (Exec.modifyFrame fun frame => { frame with result := result frame, returned := true })
        fun _ => J none) (hdelete : ∀ v, stmt = .delete v → Triple allowed E I
      (Exec.modifyFrame fun frame => { frame with locals := frame.locals.erase v.id }) fun _ => J none)
    (hjump : ∀ label ∈ stmt.ownTargets, Triple allowed E I (jump label) fun p => J (some p))
    (hstay : declared? stmt = none → ∀ s, I s → J none s)
    (hlow : stmt.isLowered = false → ∀ name, allowed (.unlowered name)) :
    Triple allowed E I (execute m invoke stmt) J := by
  have lift {α : Type} {c : Exec α} (h : Safe I allowed c) : Triple allowed E I c fun _ => I :=
    fun s hs => (h s hs).mono hE fun _ _ h => h
  have heval (e : Expr) (he : e.accesses ⊆ stmt.ownAccesses) :=
    lift (safe_eval kept m hinvoke e fun a ha => haccesses a (he ha))
  have hdone (jumped : Option Nat) : Triple allowed E (J jumped) (pure jumped) J :=
    triple_pure fun _ h => h
  cases stmt with
  | declare v initializer =>
    have hstore (value : Value) := (hdeclare v initializer rfl value).bind fun _ => hdone none
    cases initializer with
    | none => exact (lift (kept.onHeap _)).bind hstore
    | some e => exact (heval e (List.Subset.refl _)).bind hstore
  | ret value =>
    cases value with
    | none => exact (hret none rfl (·.result)).bind fun _ => hdone none
    | some e =>
      exact (heval e (List.Subset.refl _)).bind fun value =>
        (hret _ rfl fun _ => value).bind fun _ => hdone none
  | expr e => exact (heval e (List.Subset.refl _)).bind fun _ => triple_pure (hstay rfl)
  | label => exact triple_pure (hstay rfl)
  | goto label => exact (hjump label mem_cons_self).bind fun _ => hdone _
  | gotoIf condition label =>
    refine (heval condition (List.Subset.refl _)).bind fun value => ?_
    refine (lift (kept.ofExcept (operational_asBool value))).bind fun taken => ?_
    cases taken with
    | false => exact triple_pure (hstay rfl)
    | true => exact (hjump label mem_cons_self).bind fun _ => hdone _
  | delete v => exact (hdelete v rfl).bind fun _ => hdone none
  | approach v =>
    refine (lift (kept.loadVar (haccesses _ mem_cons_self))).bind fun current => ?_
    refine (lift (kept.ofExcept (operational_asInteger current))).bind fun current => ?_
    refine (lift (kept.loadVar (haccesses _ (.tail _ mem_cons_self)))).bind fun goal => ?_
    refine (lift (kept.ofExcept (operational_asInteger goal))).bind fun goal => ?_
    refine Triple.bind (M := fun _ => I) (fun _ hs => hs) fun s => ?_
    refine (lift (kept.ofExcept (operational_convert s.heap v.type _))).bind fun value => ?_
    exact (lift (kept.storeVar (haccesses _ (.tail _ (.tail _ mem_cons_self))) value)).bind
      fun _ => triple_pure (hstay rfl)
  | block | ifElse | whileLoop | forLoop | fromTo | loop =>
    exact Triple.bind (M := fun _ => I) (fun _ hs => hs) fun s => triple_fail (hlow rfl _) hE

/-! ### Frames -/

/-- The frames of a state, with a property of the variables of packages. -/
def AtFrames (G : Store → Prop) (frames : List Frame) (s : State) : Prop :=
  s.stack.frames = frames ∧ G s.globals

/-- The frames below the innermost one, with a property of the variables of packages. -/
def AboveFrames (G : Store → Prop) (frames : List Frame) (s : State) : Prop :=
  s.stack.frames.tail = frames ∧ G s.globals

/-- What keeps every list of frames keeps what depends on the frames and the variables of packages
alone. -/
lemma safe_of_atFrames {α : Type} {c : Exec α} (h : ∀ frames, Safe (AtFrames G frames) allowed c)
    {I : State → Prop} (hG : ∀ s, I s → G s.globals)
    (hI : ∀ s s', I s → s'.stack.frames = s.stack.frames → G s'.globals → I s') :
    Safe I allowed c := by
  intro s hs
  refine (h s.stack.frames s ⟨rfl, hG s hs⟩).mono (fun s' hs' => ?_) fun _ s' hs' => ?_
  · exact hI s s' hs hs'.1 hs'.2
  · exact hI s s' hs hs'.1 hs'.2

/-- Without touching variables, everything keeps the frames. -/
lemma kept_atFrames (G : Store → Prop) (frames : List Frame)
    (hop : ∀ cause : FaultCause, cause.ofOperation = true → allowed cause) :
    Kept (AtFrames G frames) (fun _ => False) allowed where
  setHeap _ h := h
  setSink _ h := h
  addRecovered _ h := h
  read _ hv := hv.elim
  write _ _ hv := hv.elim
  ofOperation := hop

lemma triple_withFrame {frame : Frame} {action : Exec Unit} (h : Triple allowed (AboveFrames G
      frames) (AtFrames G (frame :: frames)) action fun _ => AboveFrames G frames) :
    Safe (AtFrames G frames) allowed (withFrame frame action) := by
  rintro s ⟨rfl, hs⟩
  have hends := h (s.onStack (·.push frame)) ⟨rfl, hs⟩
  unfold withFrame
  generalize action (s.onStack (·.push frame)) = result at hends ⊢
  match result with
  | .ok _ s' => exact hends
  | .error (.fault f) s' => exact hends
  | .error .outOfFuel s' => trivial

/-- **A call is safe** if its body is found and the run of the body, in a frame of its own, is. -/
theorem safe_callWith {run : Array Stmt → Exec Unit} {f : FunctionSymbol}
    {arguments : List Value} {allowed : FaultCause → Prop}
    (hop : ∀ cause : FaultCause, cause.ofOperation = true → allowed cause)
    (hoverflow : allowed (.stackOverflow m.mode.maxCallDepth))
    (hcode : f.kind = .interpreted → ∀ cause, codeOf m.program f = .error cause → allowed cause)
    (hrun : f.kind = .interpreted → ∀ file code, codeOf m.program f = .ok (file, code) → ∀ result,
      Triple allowed (AboveFrames G frames) (AtFrames G (Frame.enter f.qualifiedName file code
        (bindParams f.params arguments) result :: frames)) (run code) fun _ =>
          AboveFrames G frames) (receiver : Option Value) :
    Safe (AtFrames G frames) allowed (callWith m run f arguments receiver) := by
  have kept := kept_atFrames G frames hop
  unfold callWith
  split
  · exact kept.native m _ receiver arguments
  next hkind =>
    refine Triple.bind (M := fun _ => AtFrames G frames) (fun s hs => hs) fun s => ?_
    dsimp only
    split
    · exact triple_fail hoverflow fun _ hs => hs
    · cases hfound : codeOf m.program f with
      | error cause => exact triple_fail (hcode hkind cause hfound) fun _ hs => hs
      | ok found =>
        obtain ⟨file, code⟩ := found
        refine Triple.bind (M := fun found s => found = (file, code) ∧ AtFrames G frames s)
          (fun s hs => ⟨rfl, hs⟩) fun found s hs => ?_
        obtain ⟨rfl, hs⟩ := hs
        refine Triple.bind (kept.onHeap _) (fun result => ?_) s hs
        have hframe := triple_withFrame (hrun hkind file code hfound result)
        rw [atDepth_eq]
        exact Triple.bind hframe fun frame => triple_pure fun _ hs => hs

end Parcel
