import Parcel.Proofs.Binding.Tasks

/-!
# Binding as a run of its phases

What is built by binding files is the draft that the four phases lead to, from the packages of the
files on.
-/

namespace Parcel

open Code List

variable {δ : Growth} {α : Type}

/-! ### Drafts of what is built -/

/-- The declarations of the variables of a package. -/
def Code.Program.initializers (p : Program) (package : String) : List Initializer :=
  p.globals.flatMap fun group =>
    if package = group.package then group.stmts.map (⟨group.file, ·⟩) else []

/-- What is built, with the functions whose bodies are pending. -/
def Build.draft (b : Build) (pending : List Pending) : Draft :=
  ⟨b.catalog, b.ids, pending, b.program.functions, b.program.initializers, b.errors.toList⟩

lemma initializers_addGlobal (p : Program) (package : String) (file : Option Nat)
    (stmt : Stmt) (other : String) :
    (p.addGlobal package file stmt).initializers other =
      p.initializers other ++ if other = package then [⟨file, stmt⟩] else [] := by
  unfold Program.initializers Program.addGlobal
  dsimp only
  fun_induction Program.addToGroups package file stmt p.globals with
  | case1 => simp only [flatMap_cons, flatMap_nil, map_cons, map_nil,
      append_nil, nil_append]
  | case2 last h =>
    obtain ⟨rfl, rfl⟩ := h
    simp only [flatMap_cons, flatMap_nil, append_nil]
    split
    · exact map_append
    · rfl
  | case3 last h => simp only [flatMap_cons, flatMap_nil, map_cons, map_nil,
      append_nil]
  | case4 group groups h ih => rw [flatMap_cons, ih, flatMap_cons, append_assoc]

/-! ### Steps -/

lemma Draft.apply_growth (d : Draft) (package : String) (h : δ.initializers = []) :
    d.apply package { growth := δ } = { d with catalog := d.catalog.grow package δ } := by
  simp only [Draft.apply, h, append_nil, ite_self]
  rfl

section Steps

variable {c : Catalog} {package : String}

lemma Catalog.ensurePackage_of_mem (h : package ∈ c.names) :
    c.ensurePackage package = c := by
  rw [ensurePackage, if_pos]
  exact Option.isSome_iff_exists.mpr (package?_of_mem h)

lemma Catalog.Distinct.update_eq_grow (hd : c.Distinct) {f : Package → Package} {p : Package}
    (hp : c.package? package = some p) (h : f p = p.grow δ) :
    c.update package f = c.grow package δ := by
  simp only [update]
  congr 1
  refine map_congr_left fun q hq => ?_
  split
  next hname =>
    have hown : p = q := Option.some.inj (hp.symm.trans (hd.package?_eq_some_iff.mpr ⟨hq, hname⟩))
    rw [← hown, h]
  next => rfl

lemma Catalog.Distinct.change?_eq (hd : c.Distinct) {p : Package}
    (hp : c.package? package = some p) {change : Package → Option Package} {taken : Bool}
    (h : change p = if taken then none else some (p.grow δ)) :
    c.change? package change = if taken then none else some (c.grow package δ) := by
  have hmem : package ∈ c.names := has_iff.mp (Option.isSome_of_eq_some hp)
  rw [change?, ensurePackage_of_mem hmem, hp, Option.bind_some, h]
  cases taken with
  | true => rfl
  | false => exact congrArg some (hd.update_eq_grow hp rfl)

lemma Catalog.Distinct.registerFunction?_eq (hd : c.Distinct)
    (hmem : package ∈ c.names) (f : FunctionSymbol) :
    c.registerFunction? package f =
      if c.isTaken package f.name then none
      else some (c.grow package { functions := [f] }) := by
  obtain ⟨p, hp⟩ := package?_of_mem hmem
  rw [isTaken, hp]
  refine hd.change?_eq hp ?_
  simp only [Package.registerFunction?, Package.grow, append_nil]
  rfl

lemma Catalog.Distinct.registerGlobal?_eq (hd : c.Distinct)
    (hmem : package ∈ c.names) (v : Var) (initializers : List Initializer) :
    c.registerGlobal? package v =
      if (c.globalsOf package).any (·.name = v.name) then none
      else some (c.grow package { globals := [v], initializers }) := by
  obtain ⟨p, hp⟩ := package?_of_mem hmem
  rw [globalsOf, hp]
  refine hd.change?_eq hp ?_
  simp only [Package.registerGlobal?, Package.global?, isSome_find?, Package.grow,
    FunctionTable.append_nil, append_nil]
  rfl

variable {b : Build} {file : SourceFile} (pending : List Pending)

lemma draft_bindLoad (hd : b.catalog.Distinct)
    (hmem : file.program.package ∈ b.catalog.names) (member : Syntax.Member) :
    ((bindLoad file member).run b).2.draft pending =
      (b.draft pending).apply file.program.package (loadTask file member b.catalog b.ids) := by
  cases member with
  | load package included =>
    rw [bindLoad, build_run_bind]
    dsimp only
    split
    next hsome =>
      obtain ⟨p, hp⟩ := Catalog.package?_of_mem hmem
      have htask : loadTask file (.load package included) b.catalog b.ids =
          { growth := loadGrowth p package.text included } := by
        simp only [loadTask, hp]
        exact if_pos hsome
      have hload : b.catalog.addLoad file.program.package package.text included =
          b.catalog.grow file.program.package (loadGrowth p package.text included) := by
        rw [Catalog.addLoad, Catalog.ensurePackage_of_mem hmem]
        exact hd.update_eq_grow hp (addLoad_eq _ _ _)
      rw [htask, Draft.apply_growth _ _ rfl]
      exact congrArg (fun catalog => { b.draft pending with catalog }) hload
    next hsome =>
      have htask : loadTask file (.load package included) b.catalog b.ids =
          { errors := [⟨some file.index, .unknownPackage package.text (Text.closest package.text
            b.catalog.names), package.span⟩] } := if_neg hsome
      rw [htask]
      simp only [Draft.apply, Catalog.grow_nil, append_nil, ite_self]
      exact congrArg (fun errors => { b.draft pending with errors }) Array.toList_push
  | _ => exact (Draft.apply_nil _ _).symm

lemma paramsFrom_cons (c : Catalog) (first : Nat) (param : Syntax.Param)
    (params : List Syntax.Param) : paramsFrom c first (param :: params) =
      ⟨⟨first⟩, param.name.text, (typeOf c param.type).1, .parameter⟩ ::
        paramsFrom c (first + 1) params := by
  simp only [paramsFrom, mapIdx_cons, Nat.add_zero, Nat.add_assoc, Nat.add_comm 1]

lemma bindParams_run (params : List Syntax.Param) (b : Binder) :
    (params.mapM bindParam).run b = (paramsFrom b.catalog b.ids.nextVar params,
      b.moved ⟨params.length, 0, 0⟩ b.scopes b.loops
        (params.flatMap fun param => (typeOf b.catalog param.type).2)) := by
  induction params generalizing b with
  | nil =>
    rw [mapM_nil, Binder.moved, flatMap_nil, Binder.adding_nil]
    rfl
  | cons param params ih =>
    have hparam : (bindParam param).run b =
        (⟨⟨b.ids.nextVar⟩, param.name.text, (typeOf b.catalog param.type).1, .parameter⟩,
          b.moved ⟨1, 0, 0⟩ b.scopes b.loops (typeOf b.catalog param.type).2) := by
      rw [bindParam, bind_run_bind, bindType_run rfl]
      rfl
    have hlength : (⟨1, 0, 0⟩ : Ids) + ⟨params.length, 0, 0⟩ = ⟨params.length + 1, 0, 0⟩ := by
      rw [Nat.add_comm]
      rfl
    rw [mapM_cons, bind_run_bind, hparam, bind_run_bind, ih, Binder.moved_moved, hlength,
      paramsFrom_cons]
    rfl

lemma bindReturnType_run (clause : Option Syntax.TypeClause) (b : Binder) :
    (bindReturnType clause).run b =
      ((returnTypeOf b.catalog clause).1, b.adding (returnTypeOf b.catalog clause).2) := by
  cases clause with
  | none => exact congrArg (Prod.mk Ty.void) b.adding_nil.symm
  | some clause => exact bindType_run rfl clause

/-- What becomes of a signature: a function that is registered, or an error if its name is taken. -/
lemma bindSignature_eq (hd : b.catalog.Distinct)
    (hmem : file.program.package ∈ b.catalog.names) (decl : Syntax.FunctionDecl) :
    ∃ errors : Array FileError,
      errors.toList = b.errors.toList ++ signatureErrors file decl b.catalog ∧
      (bindSignature file decl).run b =
        if b.catalog.isTaken file.program.package decl.name.text then
          (none, ⟨b.catalog, b.ids + ⟨decl.params.length, 1, 0⟩, b.program,
            errors.push ⟨some file.index,
              .duplicateFunction decl.name.text file.program.package, decl.name.span⟩⟩)
        else
          (some ⟨file, decl, declaredFunction file decl b.catalog b.ids⟩,
            ⟨b.catalog.grow file.program.package
              { functions := [declaredFunction file decl b.catalog b.ids] },
              b.ids + ⟨decl.params.length, 1, 0⟩, b.program, errors⟩) := by
  obtain ⟨b₁, hb₁⟩ : ∃ b₁, b₁ = (b.entered file).moved ⟨decl.params.length, 0, 0⟩
      (b.entered file).scopes [] (decl.params.flatMap fun param =>
        (typeOf b.catalog param.type).2) := ⟨_, rfl⟩
  have hparams : (BuildM.inFile file (decl.params.mapM bindParam)).run b =
      (paramsFrom b.catalog b.ids.nextVar decl.params, b₁.toBuild) := by
    rw [hb₁]
    exact inFile_run (bindParams_run decl.params (b.entered file))
  obtain ⟨b₂, hb₂⟩ : ∃ b₂, b₂ = (b₁.toBuild.entered file).adding
      (returnTypeOf b₁.catalog decl.returnType).2 := ⟨_, rfl⟩
  have hreturn : (BuildM.inFile file (bindReturnType decl.returnType)).run b₁.toBuild =
      ((returnTypeOf b₁.catalog decl.returnType).1, b₂.toBuild) := by
    rw [hb₂]
    exact inFile_run (bindReturnType_run decl.returnType (b₁.toBuild.entered file))
  have hbuild : b₂.toBuild = ⟨b.catalog, b.ids + ⟨decl.params.length, 0, 0⟩, b.program, b₂.errors⟩ := by
    rw [hb₂, hb₁]
    rfl
  have herrors : b₂.errors.toList = b.errors.toList ++ signatureErrors file decl b.catalog := by
    rw [hb₂, hb₁, signatureErrors, map_append, ← append_assoc]
    rfl
  have hcatalog : b₁.catalog = b.catalog := by rw [hb₁]; rfl
  have hregister : b.catalog.registerFunction? file.program.package
      (declaredFunction file decl b.catalog b.ids) = if b.catalog.isTaken file.program.package
        decl.name.text then none else some _ := hd.registerFunction?_eq hmem _
  have hsymbol : signatureOf ⟨(b.ids + ⟨decl.params.length, 0, 0⟩).nextFunction⟩ file decl
      (paramsFrom b.catalog b.ids.nextVar decl.params) (returnTypeOf b.catalog decl.returnType).1 =
        declaredFunction file decl b.catalog b.ids := rfl
  rw [hcatalog, hbuild] at hreturn
  refine ⟨b₂.errors, herrors, (bindSignature_run hparams hreturn).trans ?_⟩
  dsimp only
  rw [hsymbol, hregister]
  by_cases htaken : b.catalog.isTaken file.program.package decl.name.text = true
  · rw [if_pos htaken, if_pos htaken]
    rfl
  · rw [if_neg htaken, if_neg htaken]
    rfl

lemma draft_bindSignature (hd : b.catalog.Distinct)
    (hmem : file.program.package ∈ b.catalog.names) (decl : Syntax.FunctionDecl) :
    ((bindSignature file decl).run b).2.draft
        (pending ++ ((bindSignature file decl).run b).1.toList) =
      (b.draft pending).apply file.program.package (signatureTask file decl b.catalog b.ids) := by
  obtain ⟨errors, herrors, hrun⟩ := bindSignature_eq hd hmem decl
  rw [hrun, signatureTask]
  split
  · simp only [Build.draft, Draft.apply, Array.toList_push, herrors, Catalog.grow_nil, ite_self,
      append_nil, append_assoc, Option.toList_none]
  · simp only [Build.draft, Draft.apply, herrors, ite_self, append_nil, Option.toList_some]

/-- Where a file is bound matches where it is when nothing else is built. -/
lemma Build.matches_outset (b : Build) (file : SourceFile) (package : String)
    (function : Option FunctionSymbol) :
    ((b.catalog.outset b.ids).enter file package function).Matches .refl
      (b.enter file package function) where
  catalog := b.catalog.matches_refl
  package := rfl
  current := by simp only [Package.rename_refl, Option.map_id']; rfl
  function := by simp only [FunctionSymbol.rename_refl, Option.map_id']; rfl
  scopes := (Scopes.rename_refl _).symm
  loops := rfl

lemma alike_bindVarDecl (decl : Syntax.VarDecl) (b : Build) (file : SourceFile) :
    BindsAlike (bindVarDecl decl) ((b.catalog.outset b.ids).entered file) (b.entered file) := by
  obtain ⟨bound, new, hstart, hbound⟩ := mirrors_bindVarDecl decl _ _
    (b.matches_outset file file.program.package none)
  refine ⟨bound, new, hstart, hbound.trans ?_⟩
  simp only [Code.Expr.rename_refl, Option.map_id']
  rfl

lemma draft_bindGlobal (hd : b.catalog.Distinct)
    (hmem : file.program.package ∈ b.catalog.names) (member : Syntax.Member) :
    ((bindGlobal file member).run b).2.draft pending =
      (b.draft pending).apply file.program.package (globalTask file member b.catalog b.ids) := by
  cases member with
  | global decl =>
    obtain ⟨bound, new, hstart, hbound⟩ := alike_bindVarDecl decl b file
    obtain ⟨v, hv⟩ : ∃ v, v = b.ids.globalVar decl.name.text bound.1 := ⟨_, rfl⟩
    -- what is built before the variable is registered
    obtain ⟨errors, herrors⟩ : ∃ errors, errors = ((b.entered file).adding new).errors := ⟨_, rfl⟩
    have herrors' : errors.toList =
        b.errors.toList ++ new.map (FileError.mk (some file.index)) := by
      rw [herrors]
      rfl
    have hinside : (BuildM.inFile file (bindVarDecl decl)).run b = (bound, { b with errors }) := by
      rw [inFile_run hbound, herrors]
      rfl
    have hregister := hd.registerGlobal?_eq hmem v [⟨some file.index, .declare v bound.2⟩]
    have hname : v.name = decl.name.text := by rw [hv]; rfl
    rw [hname] at hregister
    rw [bindGlobal_run hinside, globalTask]
    simp only [hstart, ← hv]
    by_cases htaken :
        (b.catalog.globalsOf file.program.package).any (·.name = decl.name.text) = true
    · rw [if_pos htaken] at hregister ⊢
      rw [hregister]
      simp only [Build.draft, Draft.apply, Array.toList_push, herrors', Catalog.grow_nil, ite_self,
        append_nil, append_assoc]
      rfl
    · rw [if_neg htaken] at hregister ⊢
      have hinitializers := funext (initializers_addGlobal b.program file.program.package
        (some file.index) (.declare v bound.2))
      rw [hregister]
      simp only [Build.draft, Draft.apply, hinitializers, herrors', append_nil]
      rfl
  | _ => exact (Draft.apply_nil _ _).symm

/-- The body of a function is bound alike whatever else is built. -/
lemma bodyOf_outset (b : Build) (f : Pending) :
    ∃ n scopes loops new body,
      (b.catalog.outset b.ids).bodyOf f =
        (body, ((b.catalog.outset b.ids).inBody f).moved n scopes loops new) ∧
      b.bodyOf f = (body, (b.inBody f).moved n scopes loops new) := by
  have hparallel := parallel_bindBody (ρ := .refl) f.symbol f.decl
  rw [f.symbol.rename_refl] at hparallel
  exact hparallel.agree Code.Stmt.rename_refl (b.matches_outset f.file _ _) rfl

lemma draft_bindFunction {f : Pending} (hnone : b.program.function? f.symbol.id = none) :
    ((bindFunction f).run b).2.draft pending =
      (b.draft pending).apply f.symbol.package (bodyTask f b.catalog b.ids) := by
  obtain ⟨n, scopes, loops, new, body, hstart, hbody⟩ := bodyOf_outset b f
  rw [bindFunction_run, insert_of_function?_eq_none hnone, hbody, bodyTask_eq _ _ hstart]
  simp only [Build.draft, Draft.apply, Catalog.grow_nil, append_nil, ite_self]
  rfl

end Steps

/-! ### Loops -/

section Loops

variable {step : Draft → α → Draft} {I : Draft → Prop}

/-- A loop on what is built follows steps on the draft of it, along an invariant of drafts. -/
lemma draft_forM {f : α → BuildM Unit} {pending : List Pending} (l : List α)
    (h : ∀ a ∈ l, ∀ b : Build, I (b.draft pending) →
      ((f a).run b).2.draft pending = step (b.draft pending) a ∧ I (step (b.draft pending) a))
    (b : Build) (hb : I (b.draft pending)) :
    ((l.forM f).run b).2.draft pending = l.foldl step (b.draft pending) ∧
      I (l.foldl step (b.draft pending)) := by
  induction l generalizing b with
  | nil => exact ⟨rfl, hb⟩
  | cons a l ih =>
    obtain ⟨hstep, hinv⟩ := h a mem_cons_self b hb
    rw [foldl_cons, ← hstep]
    exact ih (fun a ha => h a (mem_cons_of_mem _ ha)) _ (hstep ▸ hinv)

lemma draft_mapM {β : Type} {f : α → BuildM β} (collect : β → List Pending) (l : List α)
    (h : ∀ a ∈ l, ∀ (b : Build) pending, I (b.draft pending) →
      ((f a).run b).2.draft (pending ++ collect ((f a).run b).1) = step (b.draft pending) a ∧
        I (step (b.draft pending) a)) (b : Build) (pending : List Pending)
    (hb : I (b.draft pending)) :
    ((l.mapM f).run b).2.draft (pending ++ ((l.mapM f).run b).1.flatMap collect) =
        l.foldl step (b.draft pending) ∧ I (l.foldl step (b.draft pending)) := by
  induction l generalizing b pending with
  | nil =>
    rw [mapM_nil]
    refine ⟨?_, hb⟩
    show b.draft (pending ++ []) = _
    rw [append_nil]
    rfl
  | cons a l ih =>
    obtain ⟨hstep, hinv⟩ := h a mem_cons_self b pending hb
    have hrest := ih (fun a ha => h a (mem_cons_of_mem _ ha)) ((f a).run b).2 _ (hstep ▸ hinv)
    rw [hstep] at hrest
    rw [foldl_cons, mapM_cons, build_run_bind, build_run_bind]
    refine ⟨Eq.trans ?_ hrest.1, hrest.2⟩
    show Build.draft _ (pending ++ (_ :: _).flatMap collect) = _
    rw [flatMap_cons, ← append_assoc]
    rfl

end Loops

/-! ### While no body is bound -/

/-- The packages have these names, no body is bound, and the pending functions are of these packages
and have different ids. -/
structure Draft.Open (names : List String) (d : Draft) : Prop where
  packages : d.catalog.names = names
  functions : d.functions = []
  housed : ∀ f ∈ d.pending, f.symbol.package ∈ names
  fresh : ∀ f ∈ d.pending, f.symbol.id.index < d.ids.nextFunction
  nodup : (d.pending.map (·.symbol.id)).Nodup

section Open

variable {names : List String} {d : Draft} {package : String}

lemma Draft.Open.distinct (h : d.Open names) (hnames : names.Nodup) : d.catalog.Distinct := by
  rw [Catalog.Distinct, h.packages]
  exact hnames

lemma Draft.Open.mem (h : d.Open names) (hmem : package ∈ names) :
    package ∈ d.catalog.names := by
  rw [h.packages]
  exact hmem

lemma Draft.Open.apply (h : d.Open names) (package : String) {e : Effect}
    (hfunctions : e.functions = []) (hpending : e.pending = []) :
    (d.apply package e).Open names := by
  have hsame : (d.apply package e).pending = d.pending := by
    rw [Draft.apply, hpending, append_nil]
  refine ⟨(Catalog.names_grow _ _ _).trans h.packages, ?_, ?_, ?_, ?_⟩
  · rw [Draft.apply, h.functions, hfunctions, append_nil]
  · rw [hsame]
    exact h.housed
  · rw [hsame]
    exact fun f hf => Nat.lt_of_lt_of_le (h.fresh f hf) (Nat.le_add_right _ _)
  · rw [hsame]
    exact h.nodup

/-- A load adds no body and no function whose body is pending. -/
lemma unpending_loadTask (file : SourceFile) (member : Syntax.Member) (c : Catalog) (ids : Ids) :
    (loadTask file member c ids).functions = [] ∧ (loadTask file member c ids).pending = [] := by
  cases member with
  | load =>
    simp only [loadTask]
    split
    · exact ⟨rfl, rfl⟩
    · exact ⟨rfl, rfl⟩
  | _ => exact ⟨rfl, rfl⟩

lemma unpending_globalTask (file : SourceFile) (member : Syntax.Member) (c : Catalog) (ids : Ids) :
    (globalTask file member c ids).functions = [] ∧
      (globalTask file member c ids).pending = [] := by
  cases member with
  | global =>
    simp only [globalTask]
    split
    · exact ⟨rfl, rfl⟩
    · exact ⟨rfl, rfl⟩
  | _ => exact ⟨rfl, rfl⟩

lemma Draft.Open.signature (h : d.Open names) {file : SourceFile}
    (hmem : file.program.package ∈ names) (decl : Syntax.FunctionDecl) :
    (d.apply package (signatureTask file decl d.catalog d.ids)).Open names := by
  simp only [signatureTask]
  split
  · exact h.apply _ rfl rfl
  · refine ⟨(Catalog.names_grow _ _ _).trans h.packages, ?_, ?_, ?_, ?_⟩
    · exact (append_nil _).trans h.functions
    · intro f hf
      rcases mem_append.mp hf with hf | hf
      · exact h.housed f hf
      · obtain rfl := mem_singleton.mp hf
        exact hmem
    · intro f hf
      rcases mem_append.mp hf with hf | hf
      · exact Nat.lt_of_lt_of_le (h.fresh f hf) (Nat.le_add_right _ _)
      · obtain rfl := mem_singleton.mp hf
        exact Nat.lt_succ_self _
    · show ((d.pending ++ [_]).map _).Nodup
      rw [map_append]
      refine nodup_append.mpr ⟨h.nodup, nodup_singleton _, ?_⟩
      intro id hid id' hid' heq
      obtain ⟨f, hf, rfl⟩ := mem_map.mp hid
      obtain rfl := mem_singleton.mp hid'
      have hlt := h.fresh f hf
      rw [heq] at hlt
      exact Nat.lt_irrefl _ hlt

end Open

/-! ### Files -/

def openedDraft (c : Catalog) (ids : Ids) (files : List SourceFile) : Draft :=
  ⟨files.foldl (fun c file => c.ensurePackage file.program.package) c, ids, [], [], fun _ => [], []⟩

def declaredDraft (c : Catalog) (ids : Ids) (files : List SourceFile) : Draft :=
  globalTasks.phase.run files (signatureTasks.phase.run files (loadTasks.phase.run files
    (openedDraft c ids files)))

section Files

variable {names : List String} (hnames : names.Nodup) {files : List SourceFile}
  (hfiles : ∀ file ∈ files, file.program.package ∈ names)
include hnames hfiles

lemma draft_members {t : FileTasks Syntax.Member} {bind : SourceFile → Syntax.Member → BuildM Unit}
    {pending : List Pending} (hitems : t.items = (·.members))
    (hbind : ∀ {b : Build} {file : SourceFile}, b.catalog.Distinct →
      file.program.package ∈ b.catalog.names → ∀ member,
      ((bind file member).run b).2.draft pending =
        (b.draft pending).apply file.program.package (t.task file member b.catalog b.ids))
    (htask : ∀ file member c ids, (t.task file member c ids).functions = [] ∧
      (t.task file member c ids).pending = [])
    (b : Build) (hb : (b.draft pending).Open names) :
    ((files.forM fun file => file.program.members.forM (bind file)).run b).2.draft pending =
        t.phase.run files (b.draft pending) ∧ (t.phase.run files (b.draft pending)).Open names := by
  refine draft_forM files (fun file hfile b hb => ?_) b hb
  rw [t.step_phase, hitems]
  refine draft_forM file.program.members (fun member _ b hb => ?_) b hb
  obtain ⟨hfunctions, hpending⟩ := htask file member b.catalog b.ids
  exact ⟨hbind (hb.distinct hnames) (hb.mem (hfiles file hfile)) member,
    hb.apply _ hfunctions hpending⟩

lemma draft_signatures (b : Build) (pending : List Pending) (hb : (b.draft pending).Open names) :
    ((files.mapM bindSignatures).run b).2.draft
        (pending ++ ((files.mapM bindSignatures).run b).1.flatten) =
        signatureTasks.phase.run files (b.draft pending) ∧
      (signatureTasks.phase.run files (b.draft pending)).Open names := by
  rw [← flatMap_id]
  refine draft_mapM id files (fun file hfile b pending hb => ?_) b pending hb
  rw [signatureTasks.step_phase]
  have hcollect : ((bindSignatures file).run b).1 =
      ((file.program.functions.mapM (bindSignature file)).run b).1.flatMap Option.toList :=
    filterMap_eq_flatMap_toList id _
  rw [hcollect]
  exact draft_mapM Option.toList file.program.functions (fun decl _ b pending hb =>
    ⟨draft_bindSignature pending (hb.distinct hnames) (hb.mem (hfiles file hfile)) decl,
      hb.signature (hfiles file hfile) decl⟩) b pending hb

end Files

lemma draft_bodies (l : List Pending) (hnodup : (l.map (·.symbol.id)).Nodup) (b : Build)
    (hnone : ∀ f ∈ l, b.program.function? f.symbol.id = none) (pending : List Pending) :
    ((l.forM bindFunction).run b).2.draft pending = bodyPhase.run l (b.draft pending) := by
  induction l generalizing b with
  | nil => rfl
  | cons f l ih =>
    obtain ⟨hne, hnodup⟩ := nodup_cons.mp hnodup
    have hstep := draft_bindFunction pending (hnone f mem_cons_self)
    refine (ih hnodup _ fun g hg => ?_).trans (congrArg (bodyPhase.run l) hstep)
    have hfunctions : ((bindFunction f).run b).2.program.functions = b.program.functions ++
        [⟨f.symbol, some f.file.index, .structured (b.bodyOf f).1⟩] := by
      rw [bindFunction_run, insert_of_function?_eq_none (hnone f mem_cons_self)]
    have hother : f.symbol.id ≠ g.symbol.id :=
      fun heq => hne (mem_map.mpr ⟨g, hg, heq.symm⟩)
    show ((bindFunction f).run b).2.program.functions.find? _ = none
    rw [hfunctions, find?_append, show b.program.functions.find? _ = none from
      hnone g (mem_cons_of_mem _ hg), Option.none_or, find?_singleton]
    exact if_neg (by simpa using hother)

/-! ### Binding -/

section Opened

variable {c : Catalog} (ids : Ids) (files : List SourceFile)

lemma bindPackages_run (files : List SourceFile) (b : Build) :
    ((files.forM bindPackage).run b).2 =
      ⟨files.foldl (fun c file => c.ensurePackage file.program.package) b.catalog, b.ids, b.program,
        b.errors⟩ := by
  induction files generalizing b with
  | nil => rfl
  | cons file files ih => exact ih ((bindPackage file).run b).2

lemma opened_openedDraft (hd : c.Distinct) :
    (openedDraft c ids files).catalog.Distinct ∧
      c.names ⊆ (openedDraft c ids files).catalog.names ∧
      ∀ file ∈ files, file.program.package ∈
        (openedDraft c ids files).catalog.names := by
  induction files generalizing c with
  | nil => exact ⟨hd, List.Subset.refl _, forall_mem_nil _⟩
  | cons file files ih =>
    obtain ⟨hdistinct, hsubset, hmem⟩ :=
      ih (Catalog.extends_ensurePackage hd file.program.package).distinct
    refine ⟨hdistinct, fun other hother => hsubset ?_, fun other hother => ?_⟩
    · exact Catalog.has_iff.mp (Catalog.has_ensurePackage.mpr (.inl (Catalog.has_iff.mpr hother)))
    · rcases mem_cons.mp hother with rfl | hother
      · exact hsubset (Catalog.has_iff.mp (Catalog.has_ensurePackage.mpr (.inr rfl)))
      · exact hmem other hother

end Opened

/-- **Binding is a run of its phases:** the files declare what they declare, and then the bodies of
the functions are bound. -/
theorem draft_bindFiles {c : Catalog} (hd : c.Distinct) (ids : Ids) (files : List Syntax.Program) :
    let d := declaredDraft c ids (indexed files)
    (bindFiles c ids files).draft d.pending = bodyPhase.run d.pending d ∧
      d.Open ((openedDraft c ids (indexed files)).catalog.names) := by
  intro d
  obtain ⟨hnames, -, hfiles⟩ := opened_openedDraft ids (indexed files) hd
  have hopen : (openedDraft c ids (indexed files)).Open
      ((openedDraft c ids (indexed files)).catalog.names) :=
    ⟨rfl, rfl, forall_mem_nil _, forall_mem_nil _, nodup_nil⟩
  obtain ⟨b₁, hb₁⟩ : ∃ b₁, b₁ = (((indexed files).forM bindPackage).run ⟨c, ids, .empty, #[]⟩).2 :=
    ⟨_, rfl⟩
  have hopened : b₁.draft [] = openedDraft c ids (indexed files) := by
    rw [hb₁, bindPackages_run]
    rfl
  obtain ⟨hloads, hopen₂⟩ := draft_members (t := loadTasks) hnames hfiles rfl (draft_bindLoad [])
    unpending_loadTask b₁ (hopened ▸ hopen)
  obtain ⟨b₂, hb₂⟩ : ∃ b₂, b₂ = (((indexed files).forM fun file =>
    file.program.members.forM (bindLoad file)).run b₁).2 := ⟨_, rfl⟩
  rw [← hb₂, hopened] at hloads
  rw [hopened, ← hloads] at hopen₂
  obtain ⟨hsignatures, hopen₃⟩ := draft_signatures hnames hfiles b₂ [] hopen₂
  obtain ⟨⟨pending, b₃⟩, hb₃⟩ : ∃ result, result = ((indexed files).mapM bindSignatures).run b₂ :=
    ⟨_, rfl⟩
  rw [← hb₃, hloads, nil_append] at hsignatures
  rw [hloads, ← hsignatures] at hopen₃
  obtain ⟨hglobals, hopen₄⟩ := draft_members (t := globalTasks) hnames hfiles rfl
    (draft_bindGlobal _) unpending_globalTask b₃ hopen₃
  obtain ⟨b₄, hb₄⟩ : ∃ b₄, b₄ = (((indexed files).forM fun file =>
    file.program.members.forM (bindGlobal file)).run b₃).2 := ⟨_, rfl⟩
  rw [← hb₄, hsignatures] at hglobals
  rw [hsignatures] at hopen₄
  have hd : b₄.draft pending.flatten = d := hglobals
  have hpending : d.pending = pending.flatten := by rw [← hd]; rfl
  have hfunctions : b₄.program.functions = [] := by
    have h := hopen₄.functions
    rwa [← hglobals] at h
  have hrun : bindFiles c ids files = ((pending.flatten.forM bindFunction).run b₄).2 := by
    unfold bindFiles buildFiles
    rw [build_run_bind, ← hb₁, build_run_bind, ← hb₂, build_run_bind, ← hb₃, build_run_bind, ← hb₄]
  refine ⟨?_, hopen₄⟩
  rw [hrun, ← hpending, draft_bodies d.pending hopen₄.nodup b₄ fun f _ => ?_, hpending, hd]
  rw [Program.function?, hfunctions]
  rfl

end Parcel
