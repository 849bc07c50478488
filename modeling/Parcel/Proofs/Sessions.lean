import Parcel.Proofs.Assignment
import Parcel.Proofs.Preservation
import Parcel.Session

/-!
# Sessions

The catalog of a session grows with every program that is bound, while the program is replaced.
After lowering, a function of the catalog has code if and only if it is one of the program that was
bound last, and the same holds of the variables of packages and their declarations. Hence evaluation
finds everything unless it comes from an earlier program.

## Main results

* `extends_bindFiles` — binding drops no member of a catalog.
* `Session.Reached.stands` — what holds along every sequence of bindings and lowerings.
* `complete_iff_bare` — which sessions are complete, and what evaluation may fail to find.
-/

namespace Parcel

open Code List

variable {catalog : Catalog}

/-! ### Growing catalogs -/

/-- No two packages have the same name. -/
def Catalog.Distinct (c : Catalog) : Prop :=
  c.names.Nodup

/-- A catalog has all functions and variables of another, in packages of distinct names. -/
structure Catalog.Extends (c c' : Catalog) : Prop where
  distinct : c'.Distinct
  functions : ∀ f, c.HasFunction f → c'.HasFunction f
  globals : ∀ v, c.HasGlobal v → c'.HasGlobal v

/-- A package has the name and all functions and variables of another. -/
structure Package.Extends (p p' : Package) : Prop where
  name : p'.name = p.name
  functions : p.functions ⊆ p'.functions
  globals : p.globals ⊆ p'.globals

namespace Catalog

variable {c c' : Catalog} {name : String}

lemma Extends.trans {c'' : Catalog} (h : c.Extends c') (h' : c'.Extends c'') : c.Extends c'' :=
  ⟨h'.distinct, fun f hf => h'.functions f (h.functions f hf),
    fun v hv => h'.globals v (h.globals v hv)⟩

lemma Distinct.extends_self (h : c.Distinct) : c.Extends c :=
  ⟨h, fun _ hf => hf, fun _ hv => hv⟩

lemma extends_ensurePackage (h : c.Distinct) (name : String) :
    c.Extends (c.ensurePackage name) := by
  refine ⟨?_, fun f => (hasFunction_ensurePackage name).mpr,
    fun v => (hasGlobal_ensurePackage name).mpr⟩
  unfold ensurePackage
  split
  · exact h
  next hnone =>
    have hnew : ∀ p ∈ c.packages, p.name ≠ name := by
      simpa [package?] using hnone
    rw [Distinct, names, map_append]
    refine nodup_append.mpr ⟨h, nodup_singleton _, ?_⟩
    simpa using hnew

lemma Distinct.package?_eq_some_iff (h : c.Distinct) {p : Package} :
    c.package? name = some p ↔ p ∈ c.packages ∧ p.name = name :=
  find?_key_eq_some_iff h

/-- A change of a package that drops no member of it drops none of the catalog. -/
lemma extends_update (h : c.Distinct) {f : Package → Package}
    (hf : ∀ p ∈ c.packages, p.name = name → p.Extends (f p)) : c.Extends (c.update name f) := by
  have hpackage (p : Package) (hp : p ∈ c.packages) :
      ∃ p' ∈ (c.update name f).packages, p.Extends p' := by
    refine ⟨_, mem_map_of_mem hp, ?_⟩
    split
    next hname => exact hf p hp hname
    · exact ⟨rfl, List.Subset.refl _, List.Subset.refl _⟩
  refine ⟨?_, ?_, ?_⟩
  · rw [Distinct, names_update fun p hp hname => (hf p hp hname).name]
    exact h
  · rintro g ⟨p, hp, hg⟩
    obtain ⟨p', hp', hextends⟩ := hpackage p hp
    exact ⟨p', hp', hextends.functions hg⟩
  · rintro v ⟨p, hp, hv⟩
    obtain ⟨p', hp', hextends⟩ := hpackage p hp
    exact ⟨p', hp', hextends.globals hv⟩

lemma extends_addLoad (h : c.Distinct) (name loaded : String) (included : Bool) :
    c.Extends (c.addLoad name loaded included) :=
  have hensure := extends_ensurePackage h name
  hensure.trans (extends_update hensure.distinct fun _ _ _ =>
    ⟨rfl, List.Subset.refl _, List.Subset.refl _⟩)

lemma extends_change? (h : c.Distinct) {change : Package → Option Package}
    (hchange : ∀ p q, change p = some q → p.Extends q) (hc : c.change? name change = some c') :
    c.Extends c' := by
  obtain ⟨p, q, hp, hq, rfl⟩ := exists_of_change? hc
  have hensure := extends_ensurePackage h name
  refine hensure.trans (extends_update hensure.distinct fun r hr hname => ?_)
  obtain rfl := Option.some.inj
    (hp.symm.trans (hensure.distinct.package?_eq_some_iff.mpr ⟨hr, hname⟩))
  exact hchange p q hq

lemma extends_registerFunction? (h : c.Distinct) {f : FunctionSymbol}
    (hregister : c.registerFunction? name f = some c') : c.Extends c' := by
  refine extends_change? h (fun p q hq => ?_) hregister
  obtain ⟨-, ⟨⟩⟩ := Option.ite_none_left_eq_some.mp hq
  exact ⟨rfl, subset_append_left _ _, List.Subset.refl _⟩

lemma extends_registerGlobal? (h : c.Distinct) {v : Var}
    (hregister : c.registerGlobal? name v = some c') : c.Extends c' := by
  refine extends_change? h (fun p q hq => ?_) hregister
  obtain ⟨-, ⟨⟩⟩ := Option.ite_none_left_eq_some.mp hq
  exact ⟨rfl, List.Subset.refl _, subset_append_left _ _⟩

end Catalog

/-! ### Binding extends the catalog -/

lemma Build.Declares.extends {pending pending' : List Pending} {b b' : Build}
    (hstep : Declares pending b pending' b') (h : b.catalog.Distinct) :
    b.catalog.Extends b'.catalog := by
  cases hstep with
  | pass => exact h.extends_self
  | package name => exact Catalog.extends_ensurePackage h name
  | load => exact Catalog.extends_addLoad h _ _ _
  | signature _ _ _ hregister => exact Catalog.extends_registerFunction? h hregister
  | global _ _ hregister => exact Catalog.extends_registerGlobal? h hregister

/-- **Binding drops no member of a catalog.** -/
theorem extends_bindFiles (h : catalog.Distinct) (ids : Ids) (files : List Syntax.Program) :
    catalog.Extends (bindFiles catalog ids files).catalog := by
  refine bindFiles_induct (I := fun _ b => catalog.Extends b.catalog) catalog ids h.extends_self
    ?_ ?_ files
  · exact fun _ _ _ _ _ hstep hb => hb.trans (hstep.extends hb.distinct)
  · intro _ b f _ hb
    rw [bindFunction_run]
    exact hb

lemma Catalog.Older.later {c : Catalog} {ids ids' : Ids} (h : c.Older ids)
    (hreach : ids.Reach ids') : c.Older ids' where
  functions f hf hkind := Nat.lt_of_lt_of_le (h.functions f hf hkind) hreach.functions
  globals v hv := Nat.lt_of_lt_of_le (h.globals v hv) hreach.vars
  methods := h.methods

lemma older_bindFiles {ids : Ids} (hformed : catalog.Formed) (h : catalog.Older ids)
    (files : List Syntax.Program) :
    (bindFiles catalog ids files).catalog.Older (bindFiles catalog ids files).ids := by
  have htyped := typed_bindFiles hformed ids files
  have hshape := shaped_bindFiles catalog ids files
  generalize bindFiles catalog ids files = b at htyped hshape ⊢
  have hbefore := h.later hshape.taken.reach
  refine ⟨fun f hf hkind => ?_, fun v hv => ?_, fun type f ⟨container, hcontainer, hf⟩ => ?_⟩
  · rcases htyped.functions f hf with hold | hnew
    · exact hbefore.functions f hold hkind
    · exact (hshape.taken.function_index (mem_map_of_mem hnew)).2
  · rcases hshape.globals v hv with hold | hnew
    · exact hbefore.globals v hold
    · exact hshape.index_lt (mem_append_left _ hnew)
  · exact h.methods type f ⟨container, htyped.sameTypes.containers ▸ hcontainer, hf⟩

lemma Code.lower_program_lowered {p : Program}
    (h : ∀ f ∈ p.functions, ∃ code, f.body = .lowered code) (ids : Ids) :
    p.lower.run ids = (p, ids) := by
  have hfunctions := lowerFunctions_induct (Q := fun ids fs lows ids' =>
    (∀ f ∈ fs, ∃ code, f.body = .lowered code) → lows = fs ∧ ids' = ids) (fun _ => ⟨rfl, rfl⟩)
    (fun ih h => by
      rw [forall_mem_cons] at h
      obtain ⟨⟨code, hcode⟩, hrest⟩ := h
      obtain ⟨rfl, rfl⟩ := ih hrest
      rw [lower_lowered hcode]
      exact ⟨rfl, rfl⟩)
    p.functions ids h
  exact Prod.ext (congrArg (Program.mk · p.globals) hfunctions.1) hfunctions.2

/-- The program of a build and the counters, before or after lowering. -/
def Build.stage (b : Build) : Bool → Program × Ids
  | false => (b.program, b.ids)
  | true => b.program.lower.run b.ids

lemma Build.reach_stage (b : Build) (lowered : Bool) : b.ids.Reach (b.stage lowered).2 := by
  cases lowered with
  | false => exact .refl _
  | true => exact reach_lower_program b.program b.ids

/-- Lowering leads to the lowered program, also for the second time. -/
lemma Build.Shaped.lower_stage {ids : Ids} {b : Build} (h : b.Shaped catalog ids [])
    (lowered : Bool) : (b.stage lowered).1.lower.run (b.stage lowered).2 = b.stage true := by
  cases lowered with
  | false => rfl
  | true =>
    refine lower_program_lowered (fun f hf => ?_) _
    have hbodies (g : Function) (hg : g ∈ b.program.functions) :
        ∃ body, g.body = .structured body ∧ Structured none body :=
      (h.bodies g hg).imp fun _ hbody => ⟨hbody.1, hbody.2.1⟩
    exact (runnable_lower_program hbodies b.ids f hf).isLowered

/-! ### Sessions -/

namespace Session

/-- The sessions that successful bindings and lowerings lead to: with the catalog before the last
binding, the program of that binding, and whether lowering came last. -/
inductive Reached : Catalog → Program → Bool → Session → Prop
  | new (settings : Settings) :
    Reached (Session.new settings).catalog .empty false (Session.new settings)
  | bind {before bound lowered s s'} (files : List Syntax.Program)
    (h : Reached before bound lowered s) (hbind : s.bind files = (none, s')) :
    Reached s.catalog s'.program false s'
  | lower {before bound lowered s s'} (h : Reached before bound lowered s)
    (hlower : s.lower = (none, s')) : Reached before bound true s'

/-- The program has lowered code for a function. -/
def HasCode (s : Session) (f : FunctionSymbol) : Prop :=
  ∃ g, s.program.function? f.id = some g ∧ g.symbol = f ∧ ∃ code, g.body = .lowered code

/-- The program has a declaration for a variable of a package. -/
def Declares (s : Session) (v : Var) : Prop :=
  ∃ group ∈ s.program.globals, ∃ initializer, Stmt.declare v initializer ∈ group.stmts

/-- The session has code for every function of its catalog that needs code, and declares every
variable of a package. -/
structure Complete (s : Session) : Prop where
  functions : ∀ f, s.catalog.HasFunction f → f.kind = .interpreted → s.HasCode f
  globals : ∀ v, s.catalog.HasGlobal v → s.Declares v

/-- A session stands on the binding of some files on top of an older catalog. -/
structure Stands (before : Catalog) (bound : Program) (lowered : Bool) (s : Session)
    (ids : Ids) (files : List Syntax.Program) : Prop where
  formed : before.Formed
  distinct : before.Distinct
  older : before.Older ids
  clean : (bindFiles before ids files).errors = #[]
  bound : bound = (bindFiles before ids files).program
  diagnostics : s.diagnostics = #[]
  catalog : s.catalog = (bindFiles before ids files).catalog
  program : s.program = ((bindFiles before ids files).stage lowered).1
  ids : s.ids = ((bindFiles before ids files).stage lowered).2

lemma halted?_eq_none {s : Session} {stage : Stage} :
    s.halted? stage = none ↔ s.diagnostics = #[] := by
  unfold halted?
  split
  next h => simpa using h
  next h => simpa using h

lemma new_eq (settings : Settings) :
    new settings = ⟨settings, (Catalog.empty.withSys {}).1, (Catalog.empty.withSys {}).2, #[],
      .empty⟩ := by
  unfold new
  generalize Catalog.empty.withSys {} = sys
  rfl

lemma distinct_withSys : (Catalog.empty.withSys {}).1.Distinct := by
  unfold Catalog.Distinct
  decide +kernel

lemma failed_of_evaluationOf {outcome : Outcome} {state : State} {fault : Fault}
    (h : (evaluationOf outcome state).result = .error (.runtime fault)) :
    outcome = .failed fault := by
  unfold evaluationOf at h
  split at h
  · cases h
  · cases outcome with
    | failed fault' =>
      obtain rfl : fault' = fault := by simpa [resultOf] using h
      rfl
    | _ => cases h

lemma bind_cases {s s' : Session} {files : List Syntax.Program}
    (h : s.bind files = (none, s')) :
    (bindFiles s.catalog s.ids files).errors = #[] ∧
      s' = ⟨s.settings, (bindFiles s.catalog s.ids files).catalog,
        (bindFiles s.catalog s.ids files).ids, #[], (bindFiles s.catalog s.ids files).program⟩ := by
  unfold bind at h
  split at h
  · cases h
  · obtain ⟨hnone, rfl⟩ := Prod.mk.inj h
    have hdiagnostics := halted?_eq_none.mp hnone
    have hnew := (Array.append_eq_empty_iff.mp hdiagnostics).2
    exact ⟨Array.map_eq_empty_iff.mp hnew, congrArg (Session.mk _ _ _ · _) hdiagnostics⟩

/-- What a lowering that succeeds makes of a session. -/
lemma lower_cases {s s' : Session} (h : s.lower = (none, s')) :
    s' = { s with program := (s.program.lower.run s.ids).1, ids := (s.program.lower.run s.ids).2 } := by
  unfold lower at h
  split at h
  · cases h
  · exact (Prod.mk.inj h).2.symm

namespace Stands

variable {before : Catalog} {bound : Program} {lowered : Bool} {s s' : Session} {ids : Ids}
  {files : List Syntax.Program}

lemma bind (h : Stands before bound lowered s ids files) {more : List Syntax.Program}
    (hbind : s.bind more = (none, s')) : Stands s.catalog s'.program false s' s.ids more := by
  obtain ⟨hclean, rfl⟩ := bind_cases hbind
  refine ⟨?_, ?_, ?_, hclean, rfl, rfl, rfl, rfl, rfl⟩
  · rw [h.catalog]
    exact formed_bindFiles h.formed ids files h.clean
  · rw [h.catalog]
    exact (extends_bindFiles h.distinct ids files).distinct
  · rw [h.catalog]
    rw [h.ids]
    exact (older_bindFiles h.formed h.older files).later (Build.reach_stage _ lowered)

lemma lower (h : Stands before bound lowered s ids files) (hlower : s.lower = (none, s')) :
    Stands before bound true s' ids files := by
  obtain rfl := lower_cases hlower
  have hstage := (shaped_bindFiles before ids files).lower_stage lowered
  rw [← h.program, ← h.ids] at hstage
  exact { h with program := congrArg Prod.fst hstage, ids := congrArg Prod.snd hstage }

/-- After lowering, exactly the functions of the last program have code. -/
lemma hasCode_iff (h : Stands before bound true s ids files) {f : FunctionSymbol}
    (hf : s.catalog.HasFunction f) (hkind : f.kind = .interpreted) :
    s.HasCode f ↔ ¬ before.HasFunction f := by
  have htyped := typed_bindFiles h.formed ids files
  have hshape := shaped_bindFiles before ids files
  rw [h.catalog] at hf
  unfold HasCode
  rw [h.program]
  constructor
  · rintro ⟨g, hg, -⟩ hold
    have hnone := hshape.function?_older (h.older.functions f hold hkind)
    cases hnone.symm.trans hg
  · intro hnew
    obtain ⟨g, hg, rfl⟩ : ∃ g ∈ (bindFiles before ids files).program.functions, g.symbol = f := by
      simpa [Build.declared] using (htyped.functions f hf).resolve_left hnew
    obtain ⟨body, hbody, -⟩ := hshape.bodies g hg
    rcases function?_lower (bindFiles before ids files).program (bindFiles before ids files).ids
      g.symbol.id with ⟨hnone, -⟩ | ⟨g', ids', hg', -, hlow⟩
    · rw [hshape.function?_eq hg] at hnone
      cases hnone
    · obtain rfl := Option.some.inj ((hshape.function?_eq hg).symm.trans hg')
      refine ⟨_, hlow, rfl, ?_⟩
      rw [lower_structured hbody]
      exact ⟨_, rfl⟩

/-- Exactly the variables of the last program are declared. -/
lemma declares_iff (h : Stands before bound true s ids files) {v : Var}
    (hv : s.catalog.HasGlobal v) : s.Declares v ↔ ¬ before.HasGlobal v := by
  have hshape := shaped_bindFiles before ids files
  rw [h.catalog] at hv
  unfold Declares
  rw [h.program]
  constructor
  · rintro ⟨group, hgroup, initializer, hdeclare⟩ hold
    have hvar : v ∈ (bindFiles before ids files).program.globalVars :=
      mem_flatMap.mpr ⟨group, hgroup, mem_flatMap.mpr ⟨_, hdeclare, mem_cons_self⟩⟩
    have hindex := hshape.taken.le_index (mem_map_of_mem (mem_append_left _
      (mem_append_left _ hvar)))
    exact absurd (h.older.globals v hold) (Nat.not_lt.mpr hindex)
  · intro hnew
    obtain ⟨group, hgroup, hvar⟩ := mem_flatMap.mp ((hshape.globals v hv).resolve_left hnew)
    obtain ⟨stmt, hstmt, hvar⟩ := mem_flatMap.mp hvar
    obtain ⟨w, initializer, rfl, -⟩ := hshape.declarations group hgroup stmt hstmt
    obtain rfl : v = w := mem_singleton.mp hvar
    exact ⟨group, hgroup, initializer, hstmt⟩

/-- A session is complete if and only if the last program was bound on top of a bare catalog. -/
lemma complete_iff (h : Stands before bound true s ids files) : s.Complete ↔ before.Bare := by
  have hextends : before.Extends s.catalog := h.catalog ▸ extends_bindFiles h.distinct ids files
  constructor
  · intro hcomplete
    refine ⟨fun f hf hkind => ?_, h.older.methods, fun v hv => ?_⟩
    · have hf' := hextends.functions f hf
      exact (h.hasCode_iff hf' hkind).mp (hcomplete.functions f hf' hkind) hf
    · have hv' := hextends.globals v hv
      exact (h.declares_iff hv').mp (hcomplete.globals v hv') hv
  · intro hbare
    refine ⟨fun f hf hkind => ?_, fun v hv => ?_⟩
    · exact (h.hasCode_iff hf hkind).mpr fun hold => hbare.functions f hold hkind
    · exact (h.declares_iff hv).mpr (hbare.globals v)

lemma allowed_of_evaluate (h : Stands before bound true s ids files) {package function : String}
    {sink : Sink} {fault : Fault}
    (hfault : (s.evaluate package function sink).1.result = .error (.runtime fault)) :
    ((bindFiles before ids files).contract before).allowed fault.cause := by
  unfold evaluate at hfault
  rw [halted?_eq_none.mpr h.diagnostics] at hfault
  cases hentry : (s.catalog.package? package).bind (·.function? function) with
  | none =>
    rw [hentry] at hfault
    cases hfault
  | some entry =>
    rw [hentry] at hfault
    have hfailed : (run ⟨s.program, s.catalog, s.settings.mode⟩ entry sink).1 = .failed fault :=
      failed_of_evaluationOf hfault
    obtain ⟨p, hp, hfunction⟩ := Option.bind_eq_some_iff.mp hentry
    have hhas : (bindFiles before ids files).catalog.HasFunction entry :=
      h.catalog ▸ ⟨p, Catalog.mem_of_package? hp, Package.mem_of_function? hfunction⟩
    rw [h.program] at hfailed
    exact allowed_of_runFor_bindFiles h.formed h.older files h.clean s.catalog s.settings.mode hhas
      hfailed

end Stands

/-- **What holds along every sequence** of bindings and lowerings that succeed. -/
theorem Reached.stands {before : Catalog} {bound : Program} {lowered : Bool} {s : Session}
    (h : Reached before bound lowered s) : ∃ ids files, Stands before bound lowered s ids files := by
  induction h with
  | new =>
    rw [new_eq]
    generalize hsys : Catalog.empty.withSys {} = sys
    have hformed := formed_withSys
    have hdistinct := distinct_withSys
    have hbare := bare_withSys
    rw [hsys] at hformed hdistinct hbare
    exact ⟨sys.2, [], hformed, hdistinct, hbare.older sys.2, rfl, rfl, rfl, rfl, rfl, rfl⟩
  | bind files _ hbind ih =>
    obtain ⟨ids, files', hstands⟩ := ih
    exact ⟨_, files, hstands.bind hbind⟩
  | lower _ hlower ih =>
    obtain ⟨ids, files, hstands⟩ := ih
    exact ⟨ids, files, hstands.lower hlower⟩

end Session

open Session in
/-- **A session is complete as long as nothing was bound before its last program.** After lowering,
a function of the catalog that needs code has code if and only if the last program brought it, and a
variable of a package is declared if and only if it did. Evaluation never runs code that is not
lowered; the functions that it does not find were there before the last program, and so were the
variables, unless they are read early. -/
theorem complete_iff_bare {before : Catalog} {bound : Program} {s : Session}
    (h : Reached before bound true s) :
    (∀ f, s.catalog.HasFunction f → f.kind = .interpreted → (s.HasCode f ↔ ¬ before.HasFunction f)) ∧
    (∀ v, s.catalog.HasGlobal v → (s.Declares v ↔ ¬ before.HasGlobal v)) ∧
    (s.Complete ↔ before.Bare) ∧
    ∀ (package function : String) (sink : Sink) (fault : Fault),
      (s.evaluate package function sink).1.result = .error (.runtime fault) →
      (∀ name, fault.cause ≠ .unlowered name) ∧
      (∀ name, fault.cause = .unresolvedFunction name →
        ∃ f, before.HasFunction f ∧ f.kind = .interpreted ∧ f.qualifiedName = name) ∧
      ∀ name, fault.cause = .unresolvedVariable name →
        bound.ReadsEarly name ∨ ∃ v, before.HasGlobal v ∧ v.name = name := by
  obtain ⟨ids, files, hstands⟩ := h.stands
  refine ⟨fun f => hstands.hasCode_iff, fun v => hstands.declares_iff, hstands.complete_iff,
    fun package function sink fault hfault => ?_⟩
  have hallowed := hstands.allowed_of_evaluate hfault
  rw [hstands.bound]
  refine ⟨fun name hcause => ?_, fun name hcause => ?_, fun name hcause => ?_⟩
  all_goals rw [hcause] at hallowed
  · exact hallowed
  · exact hallowed
  · exact hallowed

/-- A file of a package with a variable and a function that returns it. -/
def returning (package : String) : Syntax.Program :=
  let here : Span := ⟨0, 0⟩
  ⟨[.package ⟨package, here⟩,
    .global ⟨⟨"ready", here⟩, none, some (.literal (.bool true) here), here⟩,
    .function ⟨⟨"get", here⟩, [], some (.mk "bool" [] here), .ret (some (.name "ready" here)) here,
      here⟩]⟩

namespace Session

section Steps

variable {before : Catalog} {bound : Program} {lowered : Bool} {s : Session}

lemma Reached.of_bind (h : Reached before bound lowered s) {files : List Syntax.Program}
    (hnone : (s.bind files).1.isNone = true) :
    Reached s.catalog (s.bind files).2.program false (s.bind files).2 :=
  h.bind files (Prod.ext (Option.isNone_iff_eq_none.mp hnone) rfl)

lemma Reached.of_lower (h : Reached before bound lowered s) (hnone : s.lower.1.isNone = true) :
    Reached before bound true s.lower.2 :=
  h.lower (Prod.ext (Option.isNone_iff_eq_none.mp hnone) rfl)

end Steps

/-- Whether an evaluation fails since a function has no code. -/
def lacksCode (name : String) (e : Evaluation) : Bool :=
  match e.result with
  | .error (.runtime ⟨.unresolvedFunction missing, _⟩) => missing = name
  | _ => false

lemma exists_of_lacksCode {name : String} {e : Evaluation} (h : lacksCode name e = true) :
    ∃ fault, e.result = .error (.runtime fault) ∧ fault.cause = .unresolvedFunction name := by
  unfold lacksCode at h
  split at h
  next missing origin hresult =>
    exact ⟨_, hresult, congrArg FaultCause.unresolvedFunction (of_decide_eq_true h)⟩
  · cases h

/-- One program is bound, and then another, which is lowered. The functions of the first are not
found any more. -/
lemma steps_returning :
    let one := (new {}).bind [returning "old"]
    let two := one.2.bind [returning "new"]
    one.1.isNone = true ∧ two.1.isNone = true ∧ two.2.lower.1.isNone = true ∧ ¬ one.2.catalog.Bare ∧
      lacksCode "old::get" (two.2.lower.2.evaluate "old" "get" {}).1 = true := by
  decide +kernel

end Session

open Session in
/-- Not every session that was lowered last is complete: a function of an earlier program has no
code. -/
theorem not_complete_of_earlier : ∃ before bound s, Reached before bound true s ∧ ¬ s.Complete ∧
    ∃ sink fault, (s.evaluate "old" "get" sink).1.result = .error (.runtime fault) ∧
      fault.cause = .unresolvedFunction "old::get" := by
  have hsteps := steps_returning
  generalize [returning "old"] = old, [returning "new"] = new' at hsteps
  obtain ⟨hone, htwo, hlower, hbare, hlacks⟩ := hsteps
  have hreached := (((Reached.new {}).of_bind hone).of_bind htwo).of_lower hlower
  obtain ⟨ids, files, hstands⟩ := hreached.stands
  exact ⟨_, _, _, hreached, hstands.complete_iff.not.mpr hbare, {}, exists_of_lacksCode hlacks⟩

open Session in
theorem complete_iff_bare_returning : ∃ before bound s, Reached before bound true s ∧ ¬ s.Complete ∧
    (∃ f, s.catalog.HasFunction f ∧ f.qualifiedName = "old::get" ∧ ¬ s.HasCode f) ∧
    ∃ f, s.catalog.HasFunction f ∧ f.qualifiedName = "new::get" ∧ s.HasCode f := by
  have hsteps := steps_returning
  have hfunctions : let one := (new {}).bind [returning "old"]
      let s := (one.2.bind [returning "new"]).2.lower.2
      (∃ p ∈ s.catalog.packages, ∃ f ∈ p.functions, f.kind = .interpreted ∧
        f.qualifiedName = "old::get" ∧ ∃ q ∈ one.2.catalog.packages, f ∈ q.functions) ∧
      ∃ p ∈ s.catalog.packages, ∃ f ∈ p.functions, f.kind = .interpreted ∧
        f.qualifiedName = "new::get" ∧ ¬ ∃ q ∈ one.2.catalog.packages, f ∈ q.functions := by
    decide +kernel
  generalize [returning "old"] = old, [returning "new"] = new' at hsteps hfunctions
  obtain ⟨hone, htwo, hlower, hbare, -⟩ := hsteps
  obtain ⟨⟨p, hp, f, hf, hkind, hname, hold⟩, p', hp', f', hf', hkind', hname', hnew⟩ := hfunctions
  have hreached := (((Reached.new {}).of_bind hone).of_bind htwo).of_lower hlower
  obtain ⟨hcode, -, hcomplete, -⟩ := complete_iff_bare hreached
  refine ⟨_, _, _, hreached, hcomplete.not.mpr hbare, ⟨f, ⟨p, hp, hf⟩, hname, ?_⟩,
    f', ⟨p', hp', hf'⟩, hname', ?_⟩
  · exact (hcode f ⟨p, hp, hf⟩ hkind).not.mpr (not_not_intro hold)
  · exact (hcode f' ⟨p', hp', hf'⟩ hkind').mpr hnew

end Parcel
