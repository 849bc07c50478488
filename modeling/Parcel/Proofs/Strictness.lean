import Parcel.Proofs.Machine.Congruence

/-!
# Strict runs

A strict run does what the same run does that is not strict, up to the first fault from which the
latter recovers. There it ends, with this fault.

## Main results

* `cuts_congruence` — strict machines cut those that are not strict, whatever both do.
* `strict_run_eq_cut` — a strict run is the run cut at its first fault.
-/

namespace Parcel

open Code

/-! ### Computations that stop early -/

/-- How a computation may stop at a fault while another one goes on: `Before` says what may happen
up to the fault, and `Stop` what the other one does from there to its end. -/
structure Stopping (Before : State → State → Prop) (Stop : Fault → State → State → Prop) :
    Prop where
  quiet : ∀ {s t}, Later s t [] → Before s t
  trans : ∀ {s t u}, Before s t → Before t u → Before s u
  before : ∀ {s t}, Before s t → ∃ faults, Later s t faults
  after : ∀ {f t u}, Stop f t u → ∃ faults, Later t u faults
  earlier : ∀ {f s t u}, Later s t [] → Stop f t u → Stop f s u
  later : ∀ {f t u v faults}, Stop f t u → Later u v faults → Stop f t v
  placed : ∀ {f t u} (place : Place), Stop f t u → Stop (f.placed place) t u

/-- The second result is the first one, or a fault at which the first one goes on. -/
inductive StopsAt {α : Type} (Before : State → State → Prop) (Stop : Fault → State → State → Prop)
    (s : State) : Exec.Result α → Exec.Result α → Prop
  | same {result} (h : Before s (endState result)) : StopsAt Before Stop s result result
  | fault {result t f} (hs : Before s t) (ht : Stop f t (endState result)) :
    StopsAt Before Stop s result (.error (.fault f) t)

/-- From every state the second computation ends as the first one, or has stopped before. -/
def Stops (Before : State → State → Prop) (Stop : Fault → State → State → Prop) {α : Type}
    (c c' : Exec α) : Prop :=
  ∀ s, StopsAt Before Stop s (c s) (c' s)

namespace Stopping

variable {Before : State → State → Prop} {Stop : Fault → State → State → Prop}
  (hstop : Stopping Before Stop) {α β : Type} {s t : State}
  {result result' : Exec.Result α} {c c' : Exec α}
include hstop

lemma end_later (h : StopsAt Before Stop s result result') :
    ∃ faults, Later s (endState result) faults := by
  cases h with
  | same h => exact hstop.before h
  | fault hs ht =>
    obtain ⟨_, hs⟩ := hstop.before hs
    obtain ⟨_, ht⟩ := hstop.after ht
    exact ⟨_, hs.trans ht⟩

lemma of_before (hs : Before s t) (h : StopsAt Before Stop t result result') :
    StopsAt Before Stop s result result' := by
  cases h with
  | same h => exact .same (hstop.trans hs h)
  | fault ht hend => exact .fault (hstop.trans hs ht) hend

/-- A computation that recovers from no fault. -/
lemma same (h : ∀ s, Later s (endState (c s)) []) : Stops Before Stop c c :=
  fun s => .same (hstop.quiet (h s))

/-- One computation after the other. Where the first one stops, it does not come to the second one,
which adds to the faults and to what is written only. -/
lemma bind {next next' : α → Exec β} (hc : Stops Before Stop c c')
    (hnext : ∀ a, Stops Before Stop (next a) (next' a)) :
    Stops Before Stop (c >>= next) (c' >>= next') := by
  intro s
  have hends := hc s
  generalize hresult : c s = result at hends
  generalize hresult' : c' s = result' at hends
  cases hends with
  | same h =>
    cases result with
    | ok a t =>
      rw [exec_bind_ok hresult, exec_bind_ok hresult']
      exact hstop.of_before h (hnext a t)
    | error =>
      rw [exec_bind_error hresult, exec_bind_error hresult']
      exact .same h
  | fault hs ht =>
    rw [exec_bind_error hresult']
    cases result with
    | ok a u =>
      rw [exec_bind_ok hresult]
      obtain ⟨faults, hlater⟩ := hstop.end_later (hnext a u)
      exact .fault hs (hstop.later ht hlater)
    | error =>
      rw [exec_bind_error hresult]
      exact .fault hs ht

lemma placing (span : Span) (h : Stops Before Stop c c') :
    Stops Before Stop (placing span c) (placing span c') := by
  intro s
  have hends := h s
  have hend := endState_placing span c s
  generalize hresult : c s = result at hends hend
  generalize hresult' : c' s = result' at hends
  cases hends with
  | same h =>
    have heq : Parcel.placing span c s = Parcel.placing span c' s := by
      unfold Parcel.placing
      rw [hresult, hresult']
    rw [← heq]
    exact .same (hend ▸ h)
  | fault hs ht =>
    rw [placing_fault hresult']
    exact .fault hs (hend ▸ hstop.placed _ ht)

lemma withFrame {action action' : Exec Unit} (frame : Frame) (h : Stops Before Stop action action') :
    Stops Before Stop (withFrame frame action) (withFrame frame action') := by
  intro s
  have hends := h (s.onStack (·.push frame))
  have hpush : Before s (s.onStack (·.push frame)) := hstop.quiet (.of_eq rfl rfl)
  have hpop (s : State) : Later s (s.onStack Stack.pop) [] := .of_eq rfl rfl
  unfold Parcel.withFrame
  generalize action (s.onStack (·.push frame)) = result at hends ⊢
  generalize action' (s.onStack (·.push frame)) = result' at hends ⊢
  cases hends with
  | same h =>
    have hs := hstop.trans hpush h
    cases result with
    | ok a t | error e t => exact .same (hstop.trans hs (hstop.quiet (hpop t)))
  | @fault t f hs ht =>
    have hstart := hstop.trans (hstop.trans hpush hs) (hstop.quiet (hpop t))
    have hback : Stop f (t.onStack Stack.pop) (endState result) :=
      hstop.earlier (t := t) (.of_eq rfl rfl) ht
    cases result with
    | ok a u | error e u => exact .fault hstart (hstop.later hback (hpop u))

/-- Machines that differ in their mode alone stop early whatever they do, if they do where they
recover from faults and where they limit the depth of calls. -/
lemma congruence {program : Program} {catalog : Catalog} {mode mode' : Mode}
    (hrecover : ∀ (cause : FaultCause) (span : Span) (placeholder : Value), Stops Before Stop
      (recover mode cause span placeholder) (recover mode' cause span placeholder))
    (hlimited : ∀ (depth : Nat) {c c' : Exec Value}, Stops Before Stop c c' → Stops Before Stop
      (if mode.maxCallDepth ≤ depth then Exec.fail (.stackOverflow mode.maxCallDepth) else c)
      (if mode'.maxCallDepth ≤ depth then Exec.fail (.stackOverflow mode'.maxCallDepth) else c')) :
    Congruence .refl ⟨program, catalog, mode⟩ ⟨program, catalog, mode'⟩ (Stops Before Stop) :=
  .ofMode hstop.same hstop.bind (fun h s => h s s) hstop.placing hstop.withFrame hrecover hlimited

end Stopping

/-! ### Strict machines -/

/-- The machine on which every fault ends the run. -/
def Machine.strictly (m : Machine) : Machine :=
  { m with mode := { m.mode with strict := true } }

/-- The fault at which a strict run stops: the other one could recover from it, and notes it
first. -/
def NotedFirst (f : Fault) (t u : State) : Prop :=
  f.cause.isRecoverable = true ∧ f.place.isSome = true ∧ ∃ faults, Later t u (f :: faults)

lemma stopping_notedFirst : Stopping (Later · · []) NotedFirst where
  quiet h := h
  trans h h' := h.trans h'
  before h := ⟨[], h⟩
  after h := ⟨_, h.2.2.choose_spec⟩
  earlier h h' := ⟨h'.1, h'.2.1, h'.2.2.imp fun _ hnoted => h.trans hnoted⟩
  later h h' := ⟨h.1, h.2.1, h.2.2.elim fun _ hnoted => ⟨_, hnoted.trans h'⟩⟩
  placed {f _ _} place h := by
    have hplaced : f.placed place = f := by
      obtain ⟨cause, own⟩ := f
      obtain ⟨own, rfl⟩ := Option.isSome_iff_exists.mp h.2.1
      rfl
    rwa [hplaced]

section Evaluation

variable {m : Machine} (hm : m.mode.strict = false)
include hm

/-- **Recovery**: what is not strict notes the fault that the strict one ends with. -/
theorem cuts_recover (cause : FaultCause) (span : Span) (placeholder : Value) :
    Stops (Later · · []) NotedFirst (recover m.mode cause span placeholder)
      (recover m.strictly.mode cause span placeholder) := by
  intro t
  have hnoted : Later t (t.addRecovered ⟨cause, some ⟨span, t.file⟩⟩)
      [⟨cause, some ⟨span, t.file⟩⟩] :=
    ⟨Array.toList_push, .empty, ByteArray.append_empty.symm⟩
  rw [recover, recover, exec_bind_ok (get_run t), exec_bind_ok (get_run t), hm, Bool.false_or]
  cases hcause : cause.isRecoverable with
  | false => exact .same (.refl t)
  | true => exact .fault (.refl t) ⟨hcause, rfl, [], hnoted⟩

lemma cuts_congruence : Congruence .refl m m.strictly (Stops (Later · · []) NotedFirst) := by
  refine stopping_notedFirst.congruence (cuts_recover hm) fun depth c c' h => ?_
  show Stops _ _ (if m.mode.maxCallDepth ≤ depth then _ else c)
    (if m.mode.maxCallDepth ≤ depth then _ else c')
  split
  · exact stopping_notedFirst.same .refl
  · exact h

end Evaluation

/-! ### Runs -/

lemma outcomeOf_snd (result : Exec.Result Value) :
    (outcomeOf result).2 = endState result := by
  unfold outcomeOf
  split
  all_goals rfl

lemma outcomeOf_recoverable {f : Fault} (h : f.cause.isRecoverable = true) (s : State) :
    outcomeOf (.error (.fault f) s) = (.failed f, s) := by
  obtain ⟨cause, place⟩ := f
  cases cause with
  | exit => exact absurd h Bool.false_ne_true
  | _ => rfl

/-- **Strict runs are runs cut at the first fault.** If a run that is not strict recovers from no
fault, the strict run ends with the same outcome in the same state. Otherwise the strict run fails
with the first fault from which the other one recovers, it recovers from none itself, and what it
writes is how the output of the other one starts. -/
theorem strict_run_eq_cut (program : Program) (catalog : Catalog) (maxCallDepth fuel : Nat)
    (entry : FunctionSymbol) (sink : Sink) :
    let lenient := runFor ⟨program, catalog, ⟨maxCallDepth, false⟩⟩ fuel entry sink
    let strict := runFor ⟨program, catalog, ⟨maxCallDepth, true⟩⟩ fuel entry sink
    (lenient.2.recovered = #[] → strict = lenient) ∧
      ∀ first rest, lenient.2.recovered.toList = first :: rest →
        strict.1 = .failed first ∧ strict.2.recovered = #[] ∧
          ∃ bytes, lenient.2.sink.written = strict.2.sink.written ++ bytes := by
  intro lenient strict
  let m : Machine := ⟨program, catalog, ⟨maxCallDepth, false⟩⟩
  have hcut : StopsAt (Later · · []) NotedFirst (State.initial sink)
      (runEntry m fuel entry (State.initial sink))
      (runEntry m.strictly fuel entry (State.initial sink)) := by
    simpa only [FunctionSymbol.rename_refl] using
      (cuts_congruence (m := m) rfl).runEntry fuel entry (State.initial sink)
  have hlenient : lenient = outcomeOf (runEntry m fuel entry (State.initial sink)) := rfl
  have hstrict : strict = outcomeOf (runEntry m.strictly fuel entry (State.initial sink)) := rfl
  generalize runEntry m fuel entry (State.initial sink) = result at hcut hlenient
  generalize runEntry m.strictly fuel entry (State.initial sink) = result' at hcut hstrict
  rw [hlenient, hstrict, outcomeOf_snd]
  cases hcut with
  | same h =>
    refine ⟨fun _ => rfl, fun first rest hfaults => ?_⟩
    rw [h.recovered] at hfaults
    cases hfaults
  | @fault t f hs ht =>
    obtain ⟨hcause, -, faults, ht⟩ := ht
    have hfaults : (endState result).recovered.toList = f :: faults := (hs.trans ht).recovered
    refine ⟨fun hnone => ?_, fun first rest hfirst => ?_⟩
    · rw [hnone] at hfaults
      cases hfaults
    · obtain ⟨rfl, rfl⟩ := List.cons.inj (hfaults.symm.trans hfirst)
      rw [outcomeOf_recoverable hcause]
      exact ⟨rfl, Array.toList_inj.mp hs.recovered, ht.written⟩

/-- A function that writes twice, and divides by zero after each time. -/
def dividing : Function :=
  let write : FunctionSymbol := ⟨⟨0⟩, "Write", sysName, [], .void, none, .native .write⟩
  let here : Span := ⟨0, 0⟩
  let writing (text : String) : Stmt := .expr (.call write [.literal (.string text) here] here)
  let division (n : Nat) : Stmt := .expr (.binary (.int n here) .div (.int 0 here) .int ⟨n, n⟩)
  ⟨⟨⟨1⟩, "dividing", "app", [], .void, none, .interpreted⟩, some 0,
    .lowered #[writing "a", division 1, writing "b", division 2]⟩

theorem strict_dividing_eq_cut :
    let lenient := runFor ⟨⟨[dividing], []⟩, .empty, ⟨3, false⟩⟩ 9 dividing.symbol {}
    let strict := runFor ⟨⟨[dividing], []⟩, .empty, ⟨3, true⟩⟩ 9 dividing.symbol {}
    let fault (n : Nat) : Fault := ⟨.divisionByZero, some ⟨⟨n, n⟩, some 0⟩⟩
    lenient.2.recovered.toList = [fault 1, fault 2] ∧ strict.1 = .failed (fault 1) ∧
      ∃ bytes, lenient.2.sink.written = strict.2.sink.written ++ bytes := by
  intro lenient strict fault
  have hrecovered : lenient.2.recovered.toList = [fault 1, fault 2] := by decide +kernel
  obtain ⟨hfailed, -, hwritten⟩ :=
    (strict_run_eq_cut ⟨[dividing], []⟩ .empty 3 9 dividing.symbol {}).2 _ _ hrecovered
  exact ⟨hrecovered, hfailed, hwritten⟩

end Parcel
