import Parcel.Proofs.Strictness

/-!
# The limit on nested calls

A machine that lets more calls be unfinished at the same time does what one with a smaller limit
does, up to the call at which the latter overflows. It goes on from there, while the other one has
ended.

## Main results

* `goesOn_congruence` — a machine with a larger limit goes on, whatever both do.
* `deeper_run_goes_on` — runs with a larger limit on the depth of calls.
-/

namespace Parcel

/-- The fault at which a run with a smaller limit stops: too many calls are unfinished. -/
def Overflowing (f : Fault) (t u : State) : Prop :=
  (∃ limit, f.cause = .stackOverflow limit) ∧ ∃ faults, Later t u faults

lemma stopping_overflowing : Stopping (fun s t => ∃ faults, Later s t faults) Overflowing where
  quiet h := ⟨[], h⟩
  trans h h' := h.elim fun _ h => h'.imp' _ fun _ h' => h.trans h'
  before h := h
  after h := h.2
  earlier h h' := ⟨h'.1, h'.2.imp fun _ h' => h.trans h'⟩
  later h h' := ⟨h.1, h.2.imp' _ fun _ h => h.trans h'⟩
  placed _ h := h

/-- The first computation ends as the second one, and goes on where that one overflows. -/
abbrev Outlasts {α : Type} (c c' : Exec α) : Prop :=
  Stops (fun s t => ∃ faults, Later s t faults) Overflowing c c'

/-! ### Machines -/

/-- Whether a run recovers from a fault does not depend on the limit. -/
lemma outlasts_recover (d d' : Nat) (strict : Bool) (cause : FaultCause) (span : Span)
    (placeholder : Value) : Outlasts (recover ⟨d', strict⟩ cause span placeholder)
      (recover ⟨d, strict⟩ cause span placeholder) := by
  intro s
  have hnoted : Later s (s.addRecovered ⟨cause, some ⟨span, s.file⟩⟩)
      [⟨cause, some ⟨span, s.file⟩⟩] :=
    ⟨Array.toList_push, .empty, ByteArray.append_empty.symm⟩
  rw [recover, recover, exec_bind_ok (get_run s)]
  dsimp only
  split
  · exact .same ⟨[], .refl s⟩
  · exact .same ⟨_, hnoted⟩

/-- **The limit**: a call that is within the smaller limit is within the larger one. -/
theorem outlasts_limited {d d' : Nat} (hd : d ≤ d') (depth : Nat) {c c' : Exec Value}
    (h : Outlasts c c') :
    Outlasts (if d' ≤ depth then Exec.fail (.stackOverflow d') else c)
      (if d ≤ depth then Exec.fail (.stackOverflow d) else c') := by
  intro s
  by_cases hshort : d ≤ depth
  · rw [if_pos hshort]
    by_cases hlong : d' ≤ depth
    · rw [if_pos hlong]
      exact .fault ⟨[], .refl s⟩ ⟨⟨d, rfl⟩, [], .refl s⟩
    · rw [if_neg hlong]
      exact .fault ⟨[], .refl s⟩ ⟨⟨d, rfl⟩, stopping_overflowing.end_later (h s)⟩
  · rw [if_neg hshort, if_neg fun hlong => hshort (hd.trans hlong)]
    exact h s

/-- **A machine with a larger limit goes on**, whatever both machines do. -/
theorem goesOn_congruence (program : Code.Program) (catalog : Catalog) (strict : Bool) {d d' : Nat}
    (hd : d ≤ d') :
    Congruence .refl ⟨program, catalog, ⟨d', strict⟩⟩ ⟨program, catalog, ⟨d, strict⟩⟩ Outlasts :=
  stopping_overflowing.congruence (outlasts_recover d d' strict) (outlasts_limited hd)

/-! ### Runs -/

/-- The run failed since too many calls were unfinished at the same time. -/
def Outcome.Overflows (outcome : Outcome) : Prop :=
  ∃ limit place, outcome = .failed ⟨.stackOverflow limit, place⟩

/-- **A larger limit matters to runs that overflow only.** If a run does not overflow, a run with a
larger limit has the same outcome and ends in the same state, with the same output and the same
faults from which it recovered. If it does, its output and these faults are how those of a run with
a larger limit start. -/
theorem deeper_run_goes_on (program : Code.Program) (catalog : Catalog) (strict : Bool)
    (fuel : Nat) (entry : FunctionSymbol) (sink : Sink) {d d' : Nat} (hd : d ≤ d') :
    let short := runFor ⟨program, catalog, ⟨d, strict⟩⟩ fuel entry sink
    let long := runFor ⟨program, catalog, ⟨d', strict⟩⟩ fuel entry sink
    (¬ short.1.Overflows → long = short) ∧
      (short.1.Overflows → short.2.recovered.toList <+: long.2.recovered.toList ∧
        ∃ bytes, long.2.sink.written = short.2.sink.written ++ bytes) := by
  intro short long
  have h : StopsAt (fun s t => ∃ faults, Later s t faults) Overflowing (State.initial sink)
      (runEntry ⟨program, catalog, ⟨d', strict⟩⟩ fuel entry (State.initial sink))
      (runEntry ⟨program, catalog, ⟨d, strict⟩⟩ fuel entry (State.initial sink)) := by
    simpa only [FunctionSymbol.rename_refl] using
      (goesOn_congruence program catalog strict hd).runEntry fuel entry (State.initial sink)
  have hshort : short = outcomeOf
    (runEntry ⟨program, catalog, ⟨d, strict⟩⟩ fuel entry (State.initial sink)) := rfl
  have hlong : long = outcomeOf
    (runEntry ⟨program, catalog, ⟨d', strict⟩⟩ fuel entry (State.initial sink)) := rfl
  generalize runEntry ⟨program, catalog, ⟨d, strict⟩⟩ fuel entry (State.initial sink) = result
    at h hshort
  generalize runEntry ⟨program, catalog, ⟨d', strict⟩⟩ fuel entry (State.initial sink) = result'
    at h hlong
  rw [hshort, hlong, outcomeOf_snd, outcomeOf_snd]
  cases h with
  | same =>
    exact ⟨fun _ => rfl, fun _ => ⟨List.prefix_rfl, .empty, ByteArray.append_empty.symm⟩⟩
  | @fault t f hs ht =>
    obtain ⟨⟨limit, hcause⟩, faults', ht⟩ := ht
    obtain ⟨cause, place⟩ := f
    obtain rfl : cause = .stackOverflow limit := hcause
    refine ⟨fun hnot => absurd ⟨limit, place, rfl⟩ hnot, fun _ => ⟨⟨faults', ?_⟩, ht.written⟩⟩
    exact ht.recovered.symm

/-- A function that writes, calls another one, and writes again. -/
def calling : List Code.Function :=
  let write : FunctionSymbol := ⟨⟨0⟩, "Write", sysName, [], .void, none, .native .write⟩
  let inner : FunctionSymbol := ⟨⟨1⟩, "inner", "app", [], .void, none, .interpreted⟩
  let outer : FunctionSymbol := ⟨⟨2⟩, "outer", "app", [], .void, none, .interpreted⟩
  let here : Span := ⟨0, 0⟩
  let writing (text : String) : Code.Stmt := .expr (.call write [.literal (.string text) here] here)
  [⟨outer, some 0, .lowered #[writing "a", .expr (.call inner [] here), writing "b"]⟩,
    ⟨inner, some 0, .lowered #[.expr (.binary (.int 1 here) .div (.int 0 here) .int here)]⟩]

theorem deeper_calling_goes_on :
    let outer : FunctionSymbol := ⟨⟨2⟩, "outer", "app", [], .void, none, .interpreted⟩
    let runAt (d : Nat) := runFor ⟨⟨calling, []⟩, .empty, ⟨d, false⟩⟩ 9 outer {}
    ((runAt 1).1.Overflows ∧ (runAt 1).2.recovered.toList <+: (runAt 2).2.recovered.toList ∧
        ∃ bytes, (runAt 2).2.sink.written = (runAt 1).2.sink.written ++ bytes) ∧
      ¬ (runAt 2).1.Overflows ∧ runAt 3 = runAt 2 := by
  intro outer runAt
  have hshort : (runAt 1).1.Overflows := ⟨1, some ⟨⟨0, 0⟩, some 0⟩, rfl⟩
  have hlong : ¬ (runAt 2).1.Overflows := by
    have hdone : (runAt 2).1 = .finished .void 0 := rfl
    rintro ⟨limit, place, hfailed⟩
    rw [hdone] at hfailed
    cases hfailed
  exact ⟨⟨hshort, (deeper_run_goes_on _ _ _ _ _ _ (by decide)).2 hshort⟩, hlong,
    (deeper_run_goes_on _ _ _ _ _ _ (by decide)).1 hlong⟩

end Parcel
