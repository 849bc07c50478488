import Parcel.Proofs.Sessions
import Parcel.Proofs.Strictness

/-!
# Sessions with diagnostics

Nothing that is asked of a session with diagnostics changes it, or writes anything. Diagnostics
arise in a session without any from binding and from evaluation alone: as the errors of the former,
and as the faults from which the latter recovers.

## Main results

* `recoverable_runFor` — runs recover from recoverable faults alone.
* `Session.serveAll_of_diagnostics` — sessions with diagnostics refuse all requests.
* `Session.reports_serve` — which requests lead to diagnostics, and to which ones.
-/

namespace Parcel

/-! ### Recoverable faults -/

/-- All faults from which there was a recovery are recoverable. -/
def State.Harmless (s : State) : Prop :=
  ∀ fault ∈ s.recovered, fault.cause.isRecoverable = true

/-- The computation recovers from recoverable faults alone. -/
def RecoversWell {α : Type} (c : Exec α) : Prop :=
  ∀ s : State, s.Harmless → (endState (c s)).Harmless

lemma recoversWell_congruence (m : Machine) :
    Congruence .refl m m fun c _ => RecoversWell c := by
  refine .ofRecovered (R := fun a b => (∀ fault ∈ a, fault.cause.isRecoverable = true) →
    ∀ fault ∈ b, fault.cause.isRecoverable = true) (fun _ => id) (fun h h' ha => h' (h ha)) ?_ m
  intro faults f hf hfaults fault hfault
  rcases Array.mem_push.mp hfault with hold | rfl
  · exact hfaults fault hold
  · exact hf

/-- **Runs recover from recoverable faults alone.** -/
theorem recoverable_runFor (m : Machine) (fuel : Nat) (entry : FunctionSymbol) (sink : Sink) :
    ∀ fault ∈ (runFor m fuel entry sink).2.recovered, fault.cause.isRecoverable = true := by
  have hinitial : (State.initial sink).Harmless := by simp [State.Harmless, State.initial]
  have h := (recoversWell_congruence m).runEntry fuel entry (State.initial sink) hinitial
  rwa [← outcomeOf_snd] at h

/-! ### Requests -/

namespace Session

/-- What is asked of a session. -/
inductive Request where
  | bind (files : List Syntax.Program)
  | lower
  | evaluate (package function : String) (sink : Sink)
  | runSource (text : String) (sink : Sink)

/-- What a session answers: whether a stage failed, or the result of an evaluation and the sink
after it. -/
inductive Answer where
  | stage (failure : Option Failure)
  | evaluation (evaluation : Evaluation)

/-- Why a request was not met. -/
def Answer.failure? : Answer → Option Failure
  | stage failure => failure
  | evaluation ⟨.error failure, _⟩ => some failure
  | evaluation ⟨.ok _, _⟩ => none

/-- The files that a request binds. -/
def Request.files : Request → List Syntax.Program
  | bind files => files
  | runSource text _ =>
    match parseSource text with
    | .error _ => []
    | .ok program => [program]
  | lower | evaluate _ _ _ => []

/-- A session serves a request. -/
def serve (s : Session) : Request → Answer × Session
  | .bind files => (s.bind files).map .stage id
  | .lower => s.lower.map .stage id
  | .evaluate package function sink => (s.evaluate package function sink).map .evaluation id
  | .runSource text sink => (s.runSource text sink).map .evaluation id

/-- A session serves requests one after another. -/
def serveAll (s : Session) : List Request → List Answer × Session
  | [] => ([], s)
  | request :: requests =>
    let (answer, s) := s.serve request
    let (answers, s) := s.serveAll requests
    (answer :: answers, s)

/-! ### Sessions with diagnostics -/

/-- How a session with diagnostics refuses a request: with the number of these, after the errors of
the source text itself. Nothing is asked of the sink. -/
def refusal (s : Session) : Request → Answer
  | .bind _ => .stage (some (.halted .binding s.diagnostics.size))
  | .lower => .stage (some (.halted .lowering s.diagnostics.size))
  | .evaluate _ _ sink => .evaluation ⟨.error (.halted .evaluation s.diagnostics.size), sink⟩
  | .runSource text sink =>
    match parseSource text with
    | .error failure => .evaluation ⟨.error failure, sink⟩
    | .ok _ => .evaluation ⟨.error (.halted .binding s.diagnostics.size), sink⟩

section Refused

variable {s : Session} (h : s.diagnostics ≠ #[])
include h

lemma halted?_of_diagnostics (stage : Stage) :
    s.halted? stage = some (.halted stage s.diagnostics.size) := by
  unfold halted?
  rw [if_neg (by simpa using h)]

lemma bind_of_diagnostics (files : List Syntax.Program) :
    s.bind files = (some (.halted .binding s.diagnostics.size), s) := by
  unfold bind
  rw [halted?_of_diagnostics h]

lemma serve_of_diagnostics (request : Request) : s.serve request = (s.refusal request, s) := by
  cases request with
  | bind =>
    rw [serve, bind_of_diagnostics h]
    rfl
  | lower =>
    rw [serve, lower, halted?_of_diagnostics h]
    rfl
  | evaluate =>
    rw [serve, evaluate, halted?_of_diagnostics h]
    rfl
  | runSource text =>
    rw [serve, runSource, refusal]
    cases parseSource text with
    | error => rfl
    | ok =>
      dsimp only
      rw [runFiles, bind_of_diagnostics h]
      rfl

/-- **Sessions with diagnostics refuse all requests**, and stay as they are. -/
theorem serveAll_of_diagnostics (requests : List Request) :
    s.serveAll requests = (requests.map s.refusal, s) := by
  induction requests with
  | nil => rfl
  | cons request requests ih =>
    rw [serveAll, serve_of_diagnostics h]
    dsimp only
    rw [ih, List.map_cons]

end Refused

/-! ### Sessions without diagnostics -/

/-- The errors of binding the files of a request. -/
def bindingErrors (s : Session) (request : Request) : Array FileError :=
  (bindFiles s.catalog s.ids request.files).errors

/-- The run of a function of a package, if there is the function. -/
def runOf (s : Session) (package function : String) (sink : Sink) : Option (Outcome × State) :=
  ((s.catalog.package? package).bind (·.function? function)).map fun entry =>
    run ⟨s.program, s.catalog, s.settings.mode⟩ entry sink

/-- The run that a request comes to. A source text has to be bound without errors first, and to be
lowered. -/
def started? (s : Session) : Request → Option (Outcome × State)
  | .bind _ | .lower => none
  | .evaluate package function sink => s.runOf package function sink
  | .runSource text sink =>
    match parseSource text with
    | .error _ => none
    | .ok program =>
      match s.bind [program] with
      | (some _, _) => none
      | (none, s) => s.lower.2.runOf s.settings.package s.settings.function sink

/-- The faults from which the run of a request recovers. -/
def collected (s : Session) (request : Request) : Array Fault :=
  match s.started? request with
  | some (_, state) => state.recovered
  | none => #[]

/-- What a session without diagnostics answers to a request, and what it is like afterwards. -/
structure Reports (s : Session) (request : Request) (answer : Answer) (after : Session) : Prop where
  /-- The new diagnostics are the errors of binding, each in its file, or the faults from which a
  run recovered, each in the file of its place. -/
  diagnostics : after.diagnostics =
    (s.bindingErrors request).map (fun e => ⟨e.file, .binding e.error⟩) ++
      (s.collected request).map fun f => ⟨f.place.bind (·.file), .runtime f⟩
  /-- There are errors of binding if and only if it is these that stopped the request. -/
  halted : s.bindingErrors request ≠ #[] ↔
    answer.failure? = some (.halted .binding (s.bindingErrors request).size)
  /-- No run starts after errors of binding. -/
  unstarted : s.bindingErrors request ≠ #[] → s.started? request = none
  recoverable : ∀ fault ∈ s.collected request, fault.cause.isRecoverable = true
  /-- A run is answered with its result, however it ended. -/
  answered : ∀ outcome state, s.started? request = some (outcome, state) →
    answer = .evaluation (evaluationOf outcome state)

/-- Nothing but binding is halted for errors of binding. -/
lemma evaluationOf_ne_halted (outcome : Outcome) (state : State) (stage : Stage) (count : Nat) :
    (evaluationOf outcome state).result ≠ .error (.halted stage count) := by
  unfold evaluationOf
  split
  · simp
  · cases outcome <;> simp [resultOf]

lemma parseSource_ne_halted (text : String) (stage : Stage) (count : Nat) :
    parseSource text ≠ .error (.halted stage count) := by
  unfold parseSource
  split
  · simp
  · split <;> simp

variable {s after : Session} {request : Request} {answer : Answer}

lemma reports_run {result : Outcome × State} (herrors : s.bindingErrors request = #[])
    (hstarted : s.started? request = some result)
    (hrecoverable : ∀ fault ∈ result.2.recovered, fault.cause.isRecoverable = true)
    (hanswer : answer = .evaluation (evaluationOf result.1 result.2))
    (hafter : after.diagnostics = result.2.recovered.map ofFault) :
    s.Reports request answer after := by
  have hcollected : s.collected request = result.2.recovered := by rw [collected, hstarted]
  refine ⟨?_, ?_, fun h => absurd herrors h, hcollected ▸ hrecoverable, ?_⟩
  · rw [hafter, herrors, hcollected, Array.map_empty, Array.empty_append]
    rfl
  · rw [herrors, hanswer]
    refine iff_of_false (fun h => h rfl) ?_
    have hne := evaluationOf_ne_halted result.1 result.2 .binding 0
    generalize evaluationOf result.1 result.2 = evaluation at hne ⊢
    obtain ⟨value, sink⟩ := evaluation
    cases value with
    | ok => simp [Answer.failure?]
    | error failure => simpa [Answer.failure?] using hne
  · intro outcome state h
    rw [hanswer, Option.some.inj (hstarted.symm.trans h)]

/-- A request that comes to no run. -/
lemma reports_unstarted (hstarted : s.started? request = none) (hhalted : s.bindingErrors request ≠
      #[] ↔ answer.failure? = some (.halted .binding (s.bindingErrors request).size))
    (hafter : after.diagnostics = (s.bindingErrors request).map ofFileError) :
    s.Reports request answer after := by
  have hcollected : s.collected request = #[] := by rw [collected, hstarted]
  refine ⟨?_, hhalted, fun _ => hstarted, ?_, ?_⟩
  · rw [hafter, hcollected, Array.map_empty, Array.append_empty]
    rfl
  · rw [hcollected]
    simp
  · rw [hstarted]
    simp

lemma reports_nothing (herrors : s.bindingErrors request = #[])
    (hstarted : s.started? request = none)
    (hanswer : ∀ count, answer.failure? ≠ some (.halted .binding count))
    (hafter : after.diagnostics = #[]) : s.Reports request answer after := by
  refine reports_unstarted hstarted (iff_of_false (fun h => h herrors) (hanswer _)) ?_
  rw [hafter, herrors, Array.map_empty]

section Served

variable {s : Session} (h : s.diagnostics = #[])
include h

lemma bind_of_no_diagnostics (files : List Syntax.Program) :
    let build := bindFiles s.catalog s.ids files
    s.bind files = (if build.errors = #[] then none else some (.halted .binding build.errors.size),
      ⟨s.settings, build.catalog, build.ids, build.errors.map ofFileError, build.program⟩) := by
  intro build
  unfold bind
  rw [halted?_eq_none.mpr h, h]
  simp [halted?, build]

lemma lower_of_no_diagnostics :
    s.lower = (none, ⟨s.settings, s.catalog, (s.program.lower.run s.ids).2, #[],
      (s.program.lower.run s.ids).1⟩) := by
  unfold lower
  rw [halted?_eq_none.mpr h]
  dsimp only
  rw [h]
  rfl

/-- A binding, be it asked for or the first stage of a source text. -/
lemma halted_bind (files : List Syntax.Program) :
    (bindFiles s.catalog s.ids files).errors ≠ #[] ↔ (s.bind files).1 =
      some (.halted .binding (bindFiles s.catalog s.ids files).errors.size) := by
  rw [bind_of_no_diagnostics h]
  by_cases herrors : (bindFiles s.catalog s.ids files).errors = #[]
  · simp [herrors]
  · simp [herrors]

/-- An evaluation, be it asked for or the last stage of a source text. -/
lemma reports_evaluate {t : Session} {request : Request} {package function : String} {sink : Sink}
    (herrors : t.bindingErrors request = #[])
    (hstarted : t.started? request = s.runOf package function sink) :
    t.Reports request (.evaluation (s.evaluate package function sink).1)
      (s.evaluate package function sink).2 := by
  unfold evaluate
  rw [halted?_eq_none.mpr h]
  unfold runOf at hstarted
  cases hentry : (s.catalog.package? package).bind (·.function? function) with
  | none =>
    rw [hentry] at hstarted
    exact reports_nothing herrors hstarted (by simp [Answer.failure?]) h
  | some entry =>
    rw [hentry] at hstarted
    refine reports_run herrors hstarted (recoverable_runFor _ _ entry sink) rfl ?_
    dsimp only
    rw [h, Array.empty_append]

/-- **Which requests lead to diagnostics**, and to which ones. -/
theorem reports_serve (request : Request) :
    s.Reports request (s.serve request).1 (s.serve request).2 := by
  cases request with
  | bind files =>
    refine reports_unstarted rfl (halted_bind h files) ?_
    rw [serve, bind_of_no_diagnostics h]
    rfl
  | lower =>
    rw [serve, lower_of_no_diagnostics h]
    exact reports_nothing rfl rfl (by simp [Answer.failure?]) rfl
  | evaluate => exact reports_evaluate h rfl rfl
  | runSource text sink =>
    rw [serve, runSource]
    cases hparse : parseSource text with
    | error failure =>
      refine reports_nothing ?_ ?_ (fun count => ?_) h
      · rw [bindingErrors, Request.files, hparse]
        rfl
      · rw [started?, hparse]
      · have hne := parseSource_ne_halted text .binding count
        rw [hparse] at hne
        simpa [Answer.failure?] using hne
    | ok program =>
      have hfiles : s.bindingErrors (.runSource text sink) =
          (bindFiles s.catalog s.ids [program]).errors := by
        rw [bindingErrors, Request.files, hparse]
      have hstarted : s.started? (.runSource text sink) = match s.bind [program] with
          | (some _, _) => none
          | (none, s) => s.lower.2.runOf s.settings.package s.settings.function sink := by
        rw [started?, hparse]
      dsimp only
      rw [runFiles]
      rw [bind_of_no_diagnostics h] at hstarted ⊢
      by_cases herrors : (bindFiles s.catalog s.ids [program]).errors = #[]
      · rw [if_pos herrors] at hstarted ⊢
        have hbound : (bindFiles s.catalog s.ids [program]).errors.map ofFileError = #[] := by
          rw [herrors, Array.map_empty]
        dsimp only at hstarted ⊢
        rw [lower_of_no_diagnostics hbound] at hstarted ⊢
        rw [Prod.map_fst, Prod.map_snd, id]
        exact reports_evaluate rfl (hfiles.trans herrors) hstarted
      · rw [if_neg herrors] at hstarted ⊢
        refine reports_unstarted hstarted ?_ ?_
        · rw [hfiles]
          exact iff_of_true herrors rfl
        · rw [hfiles]
          rfl

end Served

/-- **Diagnostics freeze a session.** If a session has diagnostics, whatever led to them, then no
requests change it, nothing is asked of a sink, and every answer is that so many diagnostics halted
the stage, or the error of a source text itself. If it has none, it gets none but from a binding
that is halted by its errors, or from an evaluation that recovers from faults: then it has exactly
these, in their order and with their files, however the run ended. -/
theorem diagnostics_freeze (s : Session) :
    (s.diagnostics ≠ #[] → ∀ later : List Request, s.serveAll later = (later.map s.refusal, s)) ∧
      (s.diagnostics = #[] →
        ∀ request, s.Reports request (s.serve request).1 (s.serve request).2) :=
  ⟨serveAll_of_diagnostics, reports_serve⟩

/-- A file with a function `main`. -/
def starting (returnType : Option String) (body : Syntax.Stmt) : Syntax.Program :=
  let here : Span := ⟨0, 0⟩
  ⟨[.function ⟨⟨"main", here⟩, [], returnType.map (.mk · [] here), body, here⟩]⟩

/-- A file of another package, which declares a variable. -/
def declaring : Syntax.Program :=
  let here : Span := ⟨0, 0⟩
  ⟨[.package ⟨"app", here⟩, .global ⟨⟨"ready", here⟩, none, some (.literal (.bool true) here), here⟩]⟩

/-- A misspelled type in the second file is its only diagnostic, under the index of that file; and
so is, after a run, the division by zero from which it recovered. -/
theorem misspelled_freezes :
    let fresh := Session.new {}
    let misspelled := starting (some "imt") (.block [] ⟨0, 0⟩)
    let s := (fresh.serve (.bind [declaring, misspelled])).2
    let one : Syntax.Expr := .literal (.number "1") ⟨7, 8⟩
    let zero : Syntax.Expr := .literal (.number "0") ⟨9, 10⟩
    let dividing := starting (some "int") (.ret (some (.binary one .div zero ⟨7, 10⟩)) ⟨0, 0⟩)
    let ready := (fresh.serveAll [.bind [declaring, dividing], .lower]).2
    let t := (ready.serve (.evaluate "main" "main" {})).2
    fresh.diagnostics = #[] ∧ ready.diagnostics = #[] ∧
      s.diagnostics = #[⟨some 1, .binding ⟨.unknownType "imt" (some "int"), ⟨0, 0⟩⟩⟩] ∧
      t.diagnostics = #[⟨some 1, .runtime ⟨.divisionByZero, some ⟨⟨7, 10⟩, some 1⟩⟩⟩] ∧
      fresh.Reports (.bind [declaring, misspelled])
        (fresh.serve (.bind [declaring, misspelled])).1 s ∧
      ready.Reports (.evaluate "main" "main" {}) (ready.serve (.evaluate "main" "main" {})).1 t ∧
      s.serveAll [.lower, .bind [], .evaluate "main" "main" ⟨.boundless, [.flush], .empty⟩] =
        ([.stage (some (.halted .lowering 1)), .stage (some (.halted .binding 1)),
          .evaluation ⟨.error (.halted .evaluation 1), ⟨.boundless, [.flush], .empty⟩⟩], s) := by
  intro fresh misspelled s one zero dividing ready t
  have hfresh : fresh.diagnostics = #[] := congrArg diagnostics (new_eq {})
  have hready : ready.diagnostics = #[] := by decide +kernel
  have hs : s.diagnostics = #[⟨some 1, .binding ⟨.unknownType "imt" (some "int"), ⟨0, 0⟩⟩⟩] := by
    decide +kernel
  have hsize : s.diagnostics.size = 1 := congrArg Array.size hs
  have hdiagnostics : s.diagnostics ≠ #[] := by
    rw [hs]
    exact fun h => nomatch congrArg Array.size h
  refine ⟨hfresh, hready, hs, by decide +kernel, (diagnostics_freeze fresh).2 hfresh _,
    (diagnostics_freeze ready).2 hready _, ?_⟩
  rw [(diagnostics_freeze s).1 hdiagnostics]
  simp only [List.map, refusal, hsize]

end Session

end Parcel
