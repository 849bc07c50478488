import Parcel.Proofs.Keyed
import Parcel.Proofs.Machine.Presence
import Parcel.Proofs.Typing.Program
import Parcel.Proofs.WellFormed

/-!
# Definite assignment

A program that is bound without errors has a body for each function that it calls and a declaration
for each variable of a package, as long as they are its own: a catalog may know others from before.
Its runs read a variable of their own without a value in one case only: the body of a `for` loop
reads a variable that the action of the loop declares.

## Main results

* `Build.Typed.honoured` — lowered programs keep to that contract.
* `unresolvedVariable_of_earlyRead` — reads without a value are early reads.
-/

namespace Parcel

open Code List

/-- What the catalog has is older than the counters, and the machine provides all methods. -/
structure Catalog.Older (c : Catalog) (ids : Ids) : Prop where
  functions : ∀ f, c.HasFunction f → f.kind = .interpreted → f.id.index < ids.nextFunction
  globals : ∀ v, c.HasGlobal v → v.id.index < ids.nextVar
  methods : ∀ type f, c.HasMethod type f → f.kind ≠ .interpreted

/-- Nothing in the catalog needs a program: the machine provides all functions, and there are no
variables of packages. -/
structure Catalog.Bare (c : Catalog) : Prop where
  functions : ∀ f, c.HasFunction f → f.kind ≠ .interpreted
  methods : ∀ type f, c.HasMethod type f → f.kind ≠ .interpreted
  globals : ∀ v, ¬ c.HasGlobal v

lemma Catalog.Bare.older {c : Catalog} (h : c.Bare) (ids : Ids) : c.Older ids where
  functions f hf hkind := absurd hkind (h.functions f hf)
  globals v hv := absurd hv (h.globals v)
  methods := h.methods

/-! ### Bodies of lowered programs -/

namespace Code

/-- Lowering introduces local variables only. -/
lemma locals_lower {stmt : Stmt} (ids : Ids) (h : ∀ v ∈ stmt.vars, v.isGlobal = false) :
    ∀ v ∈ (stmt.lower.run ids).1.vars, v.isGlobal = false := by
  have hsurvives : Survives (∀ v ∈ ·.ownVars, v.isGlobal = false) fun _ => True := by
    constructor
    case fromTo =>
      intro iterator _ _ _ _ ids _ hown _ _ _
      exact ⟨forall_mem_singleton.mpr rfl, hown, forall_mem_nil _, forall_mem_nil _⟩
    case loop => exact fun h => h
    all_goals simp [Stmt.ownVars]
  have hlow := hsurvives.forall_lower stmt ids (forall_mem_flatMap.mp h) fun _ _ => trivial
  exact forall_mem_flatMap.mpr hlow

end Code

section Shaped

variable {catalog : Catalog} {ids : Ids} {b : Build} (h : b.Shaped catalog ids [])
include h

variable {g : Function} {f : FunctionSymbol}

lemma Build.Shaped.nodup_functions : (b.program.functions.map (·.symbol.id)).Nodup := by
  refine nodup_iff_count_le_one.mpr fun id => ?_
  have hcount := Nat.le_trans (h.taken.functions id) (within_le_one _ _ _)
  rwa [map_nil, append_nil, map_map] at hcount

lemma Build.Shaped.function?_eq (hg : g ∈ b.program.functions) :
    b.program.function? g.symbol.id = some g :=
  (find?_key_eq_some_iff h.nodup_functions).mpr ⟨hg, rfl⟩

lemma Build.Shaped.codeOf_lower (hg : g ∈ b.program.functions) :
    ∃ body ids', g.body = .structured body ∧
      (g.lower.run ids').1 ∈ (b.program.lower.run b.ids).1.functions ∧
      codeOf (b.program.lower.run b.ids).1 g.symbol =
        .ok (g.file, (flatten (body.lower.run ids').1).toArray) := by
  obtain ⟨body, hbody, -⟩ := h.bodies g hg
  rcases function?_lower b.program b.ids g.symbol.id with ⟨hnone, -⟩ | ⟨g', ids', hg', -, hlow⟩
  · rw [h.function?_eq hg] at hnone
    cases hnone
  · obtain rfl := Option.some.inj ((h.function?_eq hg).symm.trans hg')
    refine ⟨body, ids', hbody, mem_of_find?_eq_some hlow, ?_⟩
    rw [lower_structured hbody] at hlow
    rw [codeOf, hlow]

lemma Build.Shaped.function?_older (hf : f.id.index < ids.nextFunction) :
    (b.program.lower.run b.ids).1.function? f.id = none := by
  rcases function?_lower b.program b.ids f.id with ⟨-, hnone⟩ | ⟨g, -, hg, -⟩
  · exact hnone
  · have hid : g.symbol.id = f.id := by simpa using find?_some hg
    have hmem : g.symbol ∈ b.program.functions.map (·.symbol) :=
      mem_map_of_mem (mem_of_find?_eq_some hg)
    have hindex := (h.taken.function_index
      (mem_map_of_mem (mem_append_left _ hmem))).1
    rw [hid] at hindex
    exact absurd hf (Nat.not_lt.mpr hindex)

lemma Build.Shaped.codeOf_older (hf : f.id.index < ids.nextFunction) :
    codeOf (b.program.lower.run b.ids).1 f = .error (.unresolvedFunction f.qualifiedName) := by
  rw [codeOf, h.function?_older hf]

lemma Build.Shaped.apart {body : Stmt} {ids' : Ids} (hbody : g.body = .structured body)
    (hlocals : ∀ v ∈ body.vars, v.isGlobal = false)
    (hlow : (g.lower.run ids').1 ∈ (b.program.lower.run b.ids).1.functions) :
    Contract.Apart (g.symbol.params.map (·.id)) (body.lower.run ids').1.vars := by
  have hnodup := (taken_order h (.refl _)).lower.nodup_vars
  rw [Program.vars, map_append, map_flatMap] at hnodup
  have hfunction := (nodup_flatMap.mp (nodup_append.mp hnodup).2.1).1 _ hlow
  rw [lower_structured hbody, Function.vars, introduced_lowered, map_append] at hfunction
  obtain ⟨-, hvars, hdisjoint⟩ := nodup_append.mp hfunction
  exact ⟨hvars, fun v hv hparam => hdisjoint _ hparam _ (mem_map_of_mem hv) rfl,
    locals_lower ids' hlocals⟩

end Shaped

/-! ### The contract -/

/-- The program reads a variable of this name early. -/
def Code.Program.ReadsEarly (p : Program) (name : String) : Prop :=
  ∃ f ∈ p.functions, ∃ body v, f.body = .structured body ∧ body.EarlyRead v ∧ v.name = name

/-- Runs of a program that is bound on top of a catalog call functions with all their arguments.
They find the code of each and the variables of packages, unless the catalog knew them before; other
than that they find no value only for early reads. -/
def Build.contract (catalog : Catalog) (b : Build) : Contract where
  allowed
    | .unresolvedVariable name =>
      b.program.ReadsEarly name ∨ ∃ v, catalog.HasGlobal v ∧ v.name = name
    | .unresolvedFunction name =>
      ∃ f, catalog.HasFunction f ∧ f.kind = .interpreted ∧ f.qualifiedName = name
    | .unlowered _ | .unresolvedLabel _ => False
    | _ => True
  globals := b.program.globalVars.map (·.id)
  callable f count := (b.signatures catalog []).Accepts (.call f count)

namespace Build.Typed

variable {catalog : Catalog} {ids : Ids} {b : Build}

lemma allowed_of_ofOperation {cause : FaultCause} (h : cause.ofOperation = true) :
    (b.contract catalog).allowed cause := by
  cases cause with
  | unresolvedVariable | unresolvedFunction | unlowered | unresolvedLabel => cases h
  | _ => trivial

lemma mem_functions (hbefore : catalog.Older ids) {f : FunctionSymbol} {count : Nat}
    (hf : (b.contract catalog).callable f count) (hkind : f.kind = .interpreted) :
    catalog.HasFunction f ∨ ∃ g ∈ b.program.functions, g.symbol = f := by
  obtain ⟨-, (hf | hf) | ⟨type, hf⟩⟩ := hf
  · exact .inl hf
  · exact .inr (by simpa [Build.declared] using hf)
  · exact absurd hkind (hbefore.methods type f hf)

/-- A variable of a package may be read anywhere: it has a value, or was known before. -/
lemma permits_globalVar (hshape : b.Shaped catalog ids []) {v : Var}
    (hv : catalog.HasGlobal v ∨ v ∈ b.program.globalVars) (present : List VarId) :
    (b.contract catalog).Permits present (.read v) := by
  rcases hv with hv | hv
  · exact .inr (.inr ⟨v, hv, rfl⟩)
  · refine .inl ?_
    rw [hshape.isGlobal_globalVars hv, if_pos rfl]
    exact mem_map_of_mem hv

lemma fits (h : b.Typed catalog []) (hshape : b.Shaped catalog ids []) (hclean : b.errors = #[])
    {g : Function} (hg : g ∈ b.program.functions) {body : Stmt} (hbody : g.body = .structured body) :
    (b.contract catalog).Fits
      (g.symbol.params ++ b.catalog.globalsOf g.symbol.package)
      (g.symbol.params.map (·.id)) body := by
  obtain ⟨body', hbody', -, hscoped⟩ := hshape.bodies g hg
  obtain rfl := Body.structured.inj (hbody.symm.trans hbody')
  obtain ⟨body', hbody', htyped⟩ := h.bodies hclean g hg
  obtain rfl := Body.structured.inj (hbody.symm.trans hbody')
  refine ⟨hscoped, fun a ha hwithin => ?_, fun v hv => .inl ⟨g, hg, body, v, hbody, hv, rfl⟩⟩
  cases a with
  | read v =>
    rcases mem_append.mp (hwithin v rfl) with hv | hv
    · have hkind := hshape.params g.symbol (mem_append_left _ (mem_map_of_mem hg)) v hv
      refine .inl ?_
      rw [Var.isGlobal, hkind, if_neg (by decide)]
      exact mem_map_of_mem hv
    · exact permits_globalVar hshape (hshape.globals v (Catalog.hasGlobal_of_globalsOf hv)) _
  | write => trivial
  | call =>
    obtain ⟨part, hpart, ha⟩ := mem_flatMap.mp ha
    exact (htyped part hpart).accepts _ ha

lemma checks_declarations (h : b.Typed catalog []) (hshape : b.Shaped catalog ids [])
    (hclean : b.errors = #[]) {group : GlobalGroup} (hgroup : group ∈ b.program.globals) :
    (b.contract catalog).Checks (fun _ => []) [] group.stmts := by
  have all : ∀ stmts ⊆ group.stmts, (b.contract catalog).Checks (fun _ => []) [] stmts := by
    intro stmts hsub
    induction stmts with
    | nil => trivial
    | cons stmt stmts ih =>
      obtain ⟨hstmt, hrest⟩ := cons_subset.mp hsub
      have haccepts := (h.declarations hclean group hgroup stmt hstmt).accepts
      obtain ⟨v, initializer, rfl, hglobal, hinit⟩ := hshape.declarations group hgroup stmt hstmt
      refine ⟨fun a ha => ?_, ?_⟩
      · cases a with
        | read w =>
          cases initializer with
          | none => cases ha
          | some e => exact permits_globalVar hshape (hinit e rfl _ ha w rfl) _
        | write => trivial
        | call => exact haccepts _ ha
      · show (b.contract catalog).Checks _ (if v.isGlobal then [] else [v.id]) stmts
        rw [hglobal, if_pos rfl]
        exact ih hrest
  exact all group.stmts (List.Subset.refl _)

/-- **Lowered programs keep to the contract**, whatever catalog and mode the machine has. -/
theorem honoured (h : b.Typed catalog []) (hshape : b.Shaped catalog ids [])
    (hbefore : catalog.Older ids)
    (hlocals : ∀ f ∈ b.program.functions, ∀ v ∈ f.body.introduced, v.isGlobal = false)
    (hclean : b.errors = #[]) (known : Catalog) (mode : Mode) :
    (b.contract catalog).Honoured ⟨(b.program.lower.run b.ids).1, known, mode⟩ where
  ofOperation _ := allowed_of_ofOperation
  stackOverflow := trivial
  missing f count cause hf hkind hcause := by
    rcases mem_functions hbefore hf hkind with hold | ⟨g, hg, rfl⟩
    · rw [hshape.codeOf_older (hbefore.functions f hold hkind)] at hcause
      obtain rfl := Except.error.inj hcause
      exact ⟨f, hold, hkind, rfl⟩
    · obtain ⟨body, ids', -, -, hcode⟩ := hshape.codeOf_lower hg
      rw [hcode] at hcause
      cases hcause
  bodies f count file code hf hkind hcode := by
    rcases mem_functions hbefore hf hkind with hold | ⟨g, hg, rfl⟩
    · rw [hshape.codeOf_older (hbefore.functions f hold hkind)] at hcode
      cases hcode
    obtain ⟨body, ids', hbody, hlow, hcode'⟩ := hshape.codeOf_lower hg
    obtain ⟨rfl, rfl⟩ := Prod.mk.inj (Except.ok.inj (hcode.symm.trans hcode'))
    obtain ⟨body', hbody', hstructured, -⟩ := hshape.bodies g hg
    obtain rfl := Body.structured.inj (hbody.symm.trans hbody')
    have hlabels := (nodup_flatMap.mp (taken_order hshape (.refl _)).lower.nodup_labels).1 _ hlow
    have hrunnable := runnable_lower hbody hstructured ids'
    rw [lower_structured hbody] at hlabels hrunnable
    rw [placed_lowered] at hlabels
    have hvars : ∀ v ∈ body.vars, v.isGlobal = false := by
      have hintroduced := hlocals g hg
      rwa [hbody] at hintroduced
    refine ⟨hrunnable, ?_⟩
    rw [hf.1, take_length]
    show ∃ atLabel, (b.contract catalog).Checks atLabel _ (flatten (body.lower.run ids').1)
    rw [flatten_eq_flat]
    exact Contract.checks_lower hstructured (h.fits hshape hclean hg hbody)
      (hshape.apart hbody hvars hlow) hlabels
  groups group hgroup := by
    refine ⟨runnable_declarations fun stmt hstmt => ?_, _,
      h.checks_declarations hshape hclean hgroup⟩
    obtain ⟨v, initializer, hstmt, -⟩ := hshape.declarations group hgroup stmt hstmt
    exact ⟨v, initializer, hstmt⟩
  globals id hid := by
    obtain ⟨v, hv, rfl⟩ := mem_map.mp hid
    obtain ⟨group, hgroup, hv⟩ := mem_flatMap.mp hv
    obtain ⟨stmt, hstmt, hv⟩ := mem_flatMap.mp hv
    obtain ⟨w, initializer, rfl, -⟩ := hshape.declarations group hgroup stmt hstmt
    obtain rfl := mem_singleton.mp hv
    refine mem_map_of_mem (mem_flatMap.mpr ⟨group, hgroup, ?_⟩)
    exact mem_filterMap.mpr ⟨_, hstmt, rfl⟩

end Build.Typed

lemma allowed_of_runFor_bindFiles {catalog : Catalog} {ids : Ids} (hformed : catalog.Formed)
    (hbefore : catalog.Older ids) (files : List Syntax.Program)
    (hclean : (bindFiles catalog ids files).errors = #[]) (known : Catalog) (mode : Mode)
    {entry : FunctionSymbol} (hentry : (bindFiles catalog ids files).catalog.HasFunction entry)
    {fuel : Nat} {sink : Sink} {fault : Fault}
    (hfault : (runFor ⟨((bindFiles catalog ids files).program.lower.run
      (bindFiles catalog ids files).ids).1, known, mode⟩ fuel entry sink).1 = .failed fault) :
    ((bindFiles catalog ids files).contract catalog).allowed fault.cause := by
  have htyped := typed_bindFiles hformed ids files
  have hhonoured := htyped.honoured (shaped_bindFiles catalog ids files) hbefore
    (locals_bindFiles catalog ids files) hclean known mode
  refine hhonoured.allowed_of_runFor ?_ hfault
  exact ⟨rfl, .inl (htyped.functions entry hentry)⟩

instance Catalog.decidableBare : DecidablePred Catalog.Bare := fun c =>
  decidable_of_iff ((∀ p ∈ c.packages, (∀ f ∈ p.functions, f.kind ≠ .interpreted) ∧ p.globals = []) ∧
    ∀ container ∈ c.containers, ∀ f ∈ container.methods, f.kind ≠ .interpreted)
    ⟨fun h => ⟨fun f ⟨p, hp, hf⟩ => (h.1 p hp).1 f hf,
      fun _ f ⟨container, hcontainer, _, hf⟩ => h.2 container hcontainer f hf,
      fun _ ⟨p, hp, hv⟩ => not_mem_nil ((h.1 p hp).2 ▸ hv)⟩,
    fun h => ⟨fun p hp => ⟨fun f hf => h.functions f ⟨p, hp, hf⟩,
      eq_nil_iff_forall_not_mem.mpr fun v hv => h.globals v ⟨p, hp, hv⟩⟩,
      fun container hcontainer f hf => h.methods container.type f ⟨container, hcontainer, rfl, hf⟩⟩⟩

lemma bare_withSys : (Catalog.empty.withSys {}).1.Bare := by
  decide +kernel

/-- **A run reads a variable without a value only by an early read.** Of files that are bound
without errors where only the package `sys` is known: if a run from any function fails since a
variable has no value, then the body of a `for` loop of the program reads a variable of that name
which the action of the loop declares. -/
theorem unresolvedVariable_of_earlyRead (files : List Syntax.Program) :
    let sys := Catalog.empty.withSys {}
    let build := bindFiles sys.1 sys.2 files
    let lowered := (build.program.lower.run build.ids).1
    build.errors = #[] → ∀ (mode : Mode) (entry : FunctionSymbol), build.catalog.HasFunction entry →
      ∀ (fuel : Nat) (sink : Sink) (fault : Fault) (name : String),
        (runFor ⟨lowered, build.catalog, mode⟩ fuel entry sink).1 = .failed fault →
        fault.cause = .unresolvedVariable name → build.program.ReadsEarly name := by
  intro sys build lowered hclean mode entry hentry fuel sink fault name hfault hcause
  have hallowed : (build.contract sys.1).allowed fault.cause :=
    allowed_of_runFor_bindFiles formed_withSys (bare_withSys.older sys.2) files hclean build.catalog
      mode hentry hfault
  rw [hcause] at hallowed
  exact hallowed.resolve_right fun ⟨v, hv, _⟩ => bare_withSys.globals v hv

/-- A file with a `for` loop whose body reads the variable that the action declares. -/
def readingEarly : Syntax.Program :=
  let here : Span := ⟨0, 0⟩
  let name (text : String) : Syntax.Expr := .name text here
  let declare (text : String) : Syntax.Stmt :=
    .declaration ⟨⟨text, here⟩, none, some (.literal (.bool true) here), here⟩
  let body : Syntax.Stmt := .expr (.assign (name "going") (name "late") here)
  ⟨[.function ⟨⟨"main", here⟩, [], none,
    .forLoop (declare "going") (name "going") (declare "late") body here, here⟩]⟩

/-- Whether a run fails since a variable of this name has no value. -/
def Outcome.lacks (name : String) : Outcome → Bool
  | .failed ⟨.unresolvedVariable missing, _⟩ => missing = name
  | _ => false

lemma Outcome.exists_of_lacks {name : String} {outcome : Outcome} (h : outcome.lacks name = true) :
    ∃ fault, outcome = .failed fault ∧ fault.cause = .unresolvedVariable name := by
  cases outcome with
  | failed fault =>
    obtain ⟨cause, origin⟩ := fault
    cases cause with
    | unresolvedVariable =>
      exact ⟨_, rfl, congrArg FaultCause.unresolvedVariable (of_decide_eq_true h)⟩
    | _ => cases h
  | _ => cases h

/-- The program is bound without errors, and its run fails. -/
lemma readingEarly_lacks :
    let sys := Catalog.empty.withSys {}
    let build := bindFiles sys.1 sys.2 [readingEarly]
    let lowered := (build.program.lower.run build.ids).1
    build.errors.size = 0 ∧ ∃ p ∈ build.catalog.packages, ∃ entry ∈ p.functions,
      (runFor ⟨lowered, build.catalog, {}⟩ 20 entry {}).1.lacks "late" = true := by
  decide +kernel

/-- Not every run of files that are bound without errors finds a value for what it reads. -/
theorem not_definitely_assigned :
    ¬ ∀ files : List Syntax.Program,
      let sys := Catalog.empty.withSys {}
      let build := bindFiles sys.1 sys.2 files
      let lowered := (build.program.lower.run build.ids).1
      build.errors = #[] → ∀ (mode : Mode) (entry : FunctionSymbol), build.catalog.HasFunction entry →
        ∀ (fuel : Nat) (sink : Sink) (fault : Fault) (name : String),
          (runFor ⟨lowered, build.catalog, mode⟩ fuel entry sink).1 = .failed fault →
          fault.cause ≠ .unresolvedVariable name := by
  intro hall
  have hfails := readingEarly_lacks
  generalize [readingEarly] = files at hfails
  obtain ⟨hsize, p, hp, entry, hentry, hlacks⟩ := hfails
  obtain ⟨fault, hfault, hcause⟩ := Outcome.exists_of_lacks hlacks
  exact hall files (Array.eq_empty_of_size_eq_zero hsize) {} entry ⟨p, hp, hentry⟩ 20 {} fault "late"
    hfault hcause

theorem unresolvedVariable_readingEarly :
    let sys := Catalog.empty.withSys {}
    let build := bindFiles sys.1 sys.2 [readingEarly]
    let lowered := (build.program.lower.run build.ids).1
    build.errors = #[] ∧ ∃ entry, build.catalog.HasFunction entry ∧
      (∃ fault, (runFor ⟨lowered, build.catalog, {}⟩ 20 entry {}).1 = .failed fault ∧
        fault.cause = .unresolvedVariable "late") ∧ build.program.ReadsEarly "late" := by
  have hfails := readingEarly_lacks
  generalize [readingEarly] = files at hfails ⊢
  obtain ⟨hsize, p, hp, entry, hentry, hlacks⟩ := hfails
  have hclean := Array.eq_empty_of_size_eq_zero hsize
  obtain ⟨fault, hfault, hcause⟩ := Outcome.exists_of_lacks hlacks
  exact ⟨hclean, entry, ⟨p, hp, hentry⟩, ⟨fault, hfault, hcause⟩,
    unresolvedVariable_of_earlyRead files hclean {} entry ⟨p, hp, hentry⟩ 20 {} fault "late" hfault
      hcause⟩

end Parcel
