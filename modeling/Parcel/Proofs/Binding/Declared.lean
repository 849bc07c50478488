import Parcel.Proofs.Binding.Drafting

/-!
# What files declare

Before any body is bound, all that the files declare is there. It has no ids from the counters on;
and the body of a function has no part in it, but for the one pending function that it is the body
of.
-/

namespace Parcel

open List

/-! ### Catalogs without new ids -/

def FunctionSymbol.Below (ids : Ids) (f : FunctionSymbol) : Prop :=
  f.id.index < ids.nextFunction ∧
    ∀ v ∈ f.params ++ f.receiver.toList, v.id.index < ids.nextVar

def Catalog.Below (ids : Ids) (c : Catalog) : Prop :=
  (∀ p ∈ c.packages, (∀ f ∈ p.functions, f.Below ids) ∧
    ∀ v ∈ p.globals, v.id.index < ids.nextVar) ∧
  ∀ k ∈ c.containers, (∀ v ∈ k.fields, v.id.index < ids.nextVar) ∧ ∀ f ∈ k.methods, f.Below ids

section Below

variable {σ : Renaming} {ids : Ids} (hσ : σ.Fixes ids)
include hσ

lemma Var.rename_eq_self {v : Var} (h : v.id.index < ids.nextVar) : v.rename σ = v := by
  rw [Var.rename, hσ.var _ h]

lemma FunctionSymbol.rename_eq_self {f : FunctionSymbol} (h : f.Below ids) : f.rename σ = f := by
  obtain ⟨id, name, package, params, returnType, receiver, kind⟩ := f
  obtain ⟨hid, hvars⟩ := h
  have hparams : params.map (·.rename σ) = params := map_eq_self_iff.mpr fun v hv =>
    Var.rename_eq_self hσ (hvars v (mem_append_left _ hv))
  have hreceiver : receiver.map (·.rename σ) = receiver := by
    cases receiver with
    | none => rfl
    | some v =>
      have hv := hvars v (mem_append_right _ mem_cons_self)
      rw [Option.map_some, Var.rename_eq_self hσ hv]
  have hfunction : σ.function id.index = id.index := hσ.function _ hid
  simp only [FunctionSymbol.rename, hparams, hreceiver, hfunction]

lemma Catalog.rename_eq_self {c : Catalog} (h : c.Below ids) : c.rename σ = c := by
  have hpackages : c.packages.map (·.rename σ) = c.packages := by
    refine map_eq_self_iff.mpr fun p hp => ?_
    obtain ⟨hfunctions, hglobals⟩ := h.1 p hp
    have hlist : p.table.list.map (·.rename σ) = p.table.list :=
      map_eq_self_iff.mpr fun f hf => FunctionSymbol.rename_eq_self hσ (hfunctions f hf)
    simp only [Package.rename, FunctionTable.rename, hlist, map_eq_self_iff.mpr fun v hv =>
      Var.rename_eq_self hσ (hglobals v hv)]
  have hcontainers : c.containers.map (·.rename σ) = c.containers := by
    refine map_eq_self_iff.mpr fun k hk => ?_
    obtain ⟨hfields, hmethods⟩ := h.2 k hk
    simp only [Container.rename, map_eq_self_iff.mpr fun f hf =>
      FunctionSymbol.rename_eq_self hσ (hmethods f hf), map_eq_self_iff.mpr fun v hv =>
      Var.rename_eq_self hσ (hfields v hv)]
  simp only [Catalog.rename, hpackages, hcontainers]

end Below

lemma below_withSys : (Catalog.empty.withSys {}).1.Below (Catalog.empty.withSys {}).2 := by
  unfold Catalog.Below FunctionSymbol.Below
  decide +kernel

/-- The catalog stays as it is whatever becomes of the ids from the counters on. -/
def Catalog.Supported (ids : Ids) (c : Catalog) : Prop :=
  ∀ σ : Renaming, σ.Fixes ids → c.rename σ = c

lemma Catalog.Below.supported {ids : Ids} {c : Catalog} (h : c.Below ids) : c.Supported ids :=
  fun _ hσ => Catalog.rename_eq_self hσ h

lemma Catalog.Supported.ensurePackage {ids : Ids} {c : Catalog} (h : c.Supported ids)
    (name : String) : (c.ensurePackage name).Supported ids := by
  unfold Catalog.ensurePackage
  split
  · exact h
  · intro σ hσ
    have hpackages : c.packages.map (·.rename σ) = c.packages := congrArg Catalog.packages (h σ hσ)
    have hcontainers : c.containers.map (·.rename σ) = c.containers :=
      congrArg Catalog.containers (h σ hσ)
    simp only [Catalog.rename, map_append, hpackages, hcontainers]
    rfl

section Supported

variable {c : Catalog} {ids : Ids}

lemma Catalog.Supported.ensurePackages (h : c.Supported ids) (files : List SourceFile) :
    (openedDraft c ids files).catalog.Supported ids := by
  induction files generalizing c with
  | nil => exact h
  | cons file files ih => exact ih (h.ensurePackage file.program.package)

lemma Catalog.Supported.openedDraft (h : c.Supported ids) (files : List SourceFile) :
    (openedDraft c ids files).Supported := by
  intro σ hσ _
  show Draft.mk (Catalog.rename σ _) _ _ _ _ _ = _
  rw [h.ensurePackages files σ hσ]
  rfl

lemma FileTasks.fits_phase {τ : Type} (t : FileTasks τ) {d : Draft} {file : SourceFile}
    (h : file.program.package ∈ d.catalog.names) : t.phase.Fits d file where
  present := h
  supported σ _ hfile := by
    show SourceFile.rename σ file = file
    rw [SourceFile.rename, hfile]
    rfl

/-- **What files declare has no ids from the counters on.** -/
theorem Catalog.Supported.declaredDraft (h : c.Supported ids) (hd : c.Distinct)
    (files : List SourceFile) : (declaredDraft c ids files).Supported := by
  obtain ⟨hdistinct, -, hfiles⟩ := opened_openedDraft ids files hd
  have hloads := Phase.supported_run (s := loadTasks.phase) files hdistinct
    (h.openedDraft files) fun file hfile => loadTasks.fits_phase (hfiles file hfile)
  have hdistinct := Phase.distinct_run (s := loadTasks.phase) hdistinct files
  have hsignatures := Phase.supported_run (s := signatureTasks.phase) files hdistinct hloads
    fun file hfile => signatureTasks.fits_phase (by rw [Phase.names_run]; exact hfiles file hfile)
  have hdistinct := Phase.distinct_run (s := signatureTasks.phase) hdistinct files
  exact Phase.supported_run files hdistinct hsignatures fun file hfile => globalTasks.fits_phase
    (by rw [Phase.names_run, Phase.names_run]; exact hfiles file hfile)

end Supported

/-! ### Drafts that differ in one pending function -/

/-- A pending function, without the members of its file, which its body does not depend on. -/
def pendingAt (index : Nat) (decl : Syntax.FunctionDecl) (symbol : FunctionSymbol) : Pending :=
  ⟨⟨index, ⟨[]⟩⟩, decl, symbol⟩

/-- The pending function without the members of its file. -/
def Pending.alone (f : Pending) : Pending :=
  pendingAt f.file.index f.decl f.symbol

/-- Drafts that are the same but for the pending functions. -/
structure Draft.Alike (d d' : Draft) : Prop where
  catalog : d'.catalog = d.catalog
  ids : d'.ids = d.ids
  functions : d'.functions = d.functions
  initializers : d'.initializers = d.initializers
  errors : d'.errors = d.errors

lemma Draft.Alike.apply {d d' : Draft} (h : d.Alike d') (package : String) {e e' : Effect}
    (he : e' = { e with pending := e'.pending }) :
    (d.apply package e).Alike (d'.apply package e') := by
  rw [he]
  exact ⟨by simp only [Draft.apply, h.catalog], by simp only [Draft.apply, h.ids],
    by simp only [Draft.apply, h.functions], by simp only [Draft.apply, h.initializers],
    by simp only [Draft.apply, h.errors]⟩

/-- Drafts that are the same but for one place among the pending functions, where they have these,
and but for the members of the files of pending functions. -/
structure Draft.Beside (here here' : List Pending) (d d' : Draft) : Prop extends d.Alike d' where
  pending : ∃ before after, d.pending.map (·.alone) = before ++ here ++ after ∧
    d'.pending.map (·.alone) = before ++ here' ++ after

namespace Draft.Beside

variable {here here' : List Pending} {d d' : Draft}

lemma refl (d : Draft) : d.Beside [] [] d :=
  ⟨⟨rfl, rfl, rfl, rfl, rfl⟩, d.pending.map (·.alone), [], by simp only [append_nil],
    by simp only [append_nil]⟩

lemma apply (h : d.Beside here here' d') (package : String) {e e' : Effect}
    (he : e' = { e with pending := e'.pending })
    (hpending : e'.pending.map (·.alone) = e.pending.map (·.alone)) :
    (d.apply package e).Beside here here' (d'.apply package e') := by
  obtain ⟨before, after, hd, hd'⟩ := h.pending
  refine ⟨h.toAlike.apply package he, before, after ++ e.pending.map (·.alone), ?_, ?_⟩
  · rw [Draft.apply, map_append, hd, append_assoc]
  · rw [Draft.apply, map_append, hd', hpending, append_assoc]

lemma fork (h : d.Beside [] [] d') (package : String) {e e' : Effect}
    (he : e' = { e with pending := e'.pending }) :
    (d.apply package e).Beside (e.pending.map (·.alone)) (e'.pending.map (·.alone))
      (d'.apply package e') := by
  obtain ⟨before, after, hd, hd'⟩ := h.pending
  refine ⟨h.toAlike.apply package he, before ++ after, [], ?_, ?_⟩
  · rw [Draft.apply, map_append, hd, append_nil, append_nil]
  · rw [Draft.apply, map_append, hd', append_nil, append_nil]

lemma task (h : d.Beside here here' d') (package : String) (t : Task) :
    (d.apply package (t d.catalog d.ids)).Beside here here'
      (d'.apply package (t d'.catalog d'.ids)) := by
  rw [h.catalog, h.ids]
  exact h.apply package rfl rfl

lemma run (h : d.Beside here here' d') {τ : Type} (s : Phase τ) (l : List τ) :
    (s.run l d).Beside here here' (s.run l d') :=
  foldl_rel h fun a _ _ _ h => h.task _ (s.task a)

/-- A phase that goes through different tasks at one place. -/
lemma run_split {there there' : List Pending} {τ : Type} {s : Phase τ} {a a' : τ} {l : List τ}
    (h : (s.step (s.run l d) a).Beside there there' (s.step (s.run l d') a')) (l' : List τ) :
    (s.run (l ++ a :: l') d).Beside there there' (s.run (l ++ a' :: l') d') := by
  simp only [Phase.run, foldl_append, foldl_cons]
  exact h.run s l'

end Draft.Beside

/-! ### What became of a declaration -/

/-- What became of the declaration of a function: a function of the package, or an error since its
name is taken. -/
def Settles (c : Catalog) (errors : List FileError) (index : Nat) (package : String)
    (decl : Syntax.FunctionDecl) : Option FunctionSymbol → Prop
  | some symbol => symbol.name = decl.name.text ∧
      ∃ p ∈ c.packages, p.name = package ∧ symbol ∈ p.functions
  | none => ⟨some index, .duplicateFunction decl.name.text package, decl.name.span⟩ ∈ errors

section Settles

variable {d : Draft} {index : Nat} {package : String} {decl : Syntax.FunctionDecl}
  {found : Option FunctionSymbol}

lemma Settles.apply (h : Settles d.catalog d.errors index package decl found) (other : String)
    (e : Effect) :
    Settles (d.apply other e).catalog (d.apply other e).errors index package decl found := by
  cases found with
  | none => exact mem_append_left _ h
  | some =>
    obtain ⟨hname, p, hp, hpackage, hmem⟩ := h
    refine ⟨hname, _, mem_map_of_mem hp, ?_, ?_⟩
    · split
      · exact hpackage
      · exact hpackage
    · split
      · exact mem_append_left _ hmem
      · exact hmem

lemma Settles.run (h : Settles d.catalog d.errors index package decl found) {τ : Type}
    (s : Phase τ) (l : List τ) :
    Settles (s.run l d).catalog (s.run l d).errors index package decl found := by
  induction l generalizing d with
  | nil => exact h
  | cons a l ih => exact ih (h.apply _ _)

end Settles

/-! ### Files that differ in the body of one function -/

/-- The files have the same index and are of the same package. -/
structure SourceFile.Akin (file file' : SourceFile) : Prop where
  index : file'.index = file.index
  package : file'.program.package = file.program.package

section Akin

variable {file file' : SourceFile} (h : file.Akin file')
include h

lemma loadTask_eq : loadTask file' = loadTask file := by
  funext member
  cases member with
  | load package => simp only [loadTask, h.index, h.package]
  | _ => rfl

lemma globalTask_eq : globalTask file' = globalTask file := by
  funext member
  cases member with
  | global => simp only [globalTask, Build.entered, Build.enter, h.index, h.package]
  | _ => rfl

end Akin

/-- The function that a signature adds, unless its name is taken. -/
def addedFunction (file : SourceFile) (decl : Syntax.FunctionDecl) (c : Catalog) (ids : Ids) :
    Option FunctionSymbol :=
  if c.isTaken file.program.package decl.name.text then none
  else some (declaredFunction file decl c ids)

lemma pending_signatureTask (file : SourceFile) (decl : Syntax.FunctionDecl) (c : Catalog)
    (ids : Ids) : (signatureTask file decl c ids).pending.map (·.alone) =
      (addedFunction file decl c ids).toList.map (pendingAt file.index decl) := by
  simp only [signatureTask, addedFunction]
  split
  · rfl
  · rfl

/-- The draft after the signature of a function. -/
def Draft.declare (d : Draft) (file : SourceFile) (decl : Syntax.FunctionDecl) : Draft :=
  d.apply file.program.package (signatureTask file decl d.catalog d.ids)

section Signature

variable {file file' : SourceFile} (hfile : file.Akin file') (decl : Syntax.FunctionDecl)
include hfile

lemma addedFunction_eq (body : Syntax.Stmt) (c : Catalog) (ids : Ids) :
    addedFunction file' { decl with body } c ids = addedFunction file decl c ids := by
  simp only [addedFunction, declaredFunction, signatureOf, hfile.package]

lemma signatureTask_eq (body : Syntax.Stmt) (c : Catalog) (ids : Ids) :
    signatureTask file' { decl with body } c ids =
      { signatureTask file decl c ids with
        pending := (signatureTask file' { decl with body } c ids).pending } := by
  simp only [signatureTask, declaredFunction, signatureOf, signatureErrors, hfile.index,
    hfile.package]
  split
  · rfl
  · rfl

variable {d d' : Draft}

lemma Draft.Beside.declare {here here' : List Pending} (h : d.Beside here here' d') :
    (d.declare file decl).Beside here here' (d'.declare file' decl) := by
  have hadded : addedFunction file' decl d.catalog d.ids =
    addedFunction file decl d.catalog d.ids := addedFunction_eq hfile decl decl.body d.catalog d.ids
  rw [Draft.declare, Draft.declare, h.catalog, h.ids, hfile.package]
  refine h.apply _ (signatureTask_eq hfile decl decl.body d.catalog d.ids) ?_
  rw [pending_signatureTask, pending_signatureTask, hfile.index, hadded]

lemma Draft.Beside.fork_declare (h : d.Beside [] [] d') (body : Syntax.Stmt) :
    (d.declare file decl).Beside
      ((addedFunction file decl d.catalog d.ids).toList.map (pendingAt file.index decl))
      ((addedFunction file decl d.catalog d.ids).toList.map
        (pendingAt file.index { decl with body }))
      (d'.declare file' { decl with body }) := by
  rw [Draft.declare, Draft.declare, h.catalog, h.ids, hfile.package, ← pending_signatureTask,
    ← addedFunction_eq hfile decl body, ← hfile.index, ← pending_signatureTask]
  exact h.fork _ (signatureTask_eq hfile decl body d.catalog d.ids)

end Signature

lemma settles_declare {d : Draft} {file : SourceFile}
    (hmem : file.program.package ∈ d.catalog.names) (decl : Syntax.FunctionDecl) :
    Settles (d.declare file decl).catalog (d.declare file decl).errors file.index
      file.program.package decl (addedFunction file decl d.catalog d.ids) := by
  simp only [Draft.declare, signatureTask, addedFunction]
  split
  · exact mem_append_right _ (mem_append_right _ mem_cons_self)
  · obtain ⟨p, hp, hname⟩ := mem_map.mp hmem
    refine ⟨rfl, _, mem_map_of_mem hp, ?_, ?_⟩
    · rw [if_pos hname]
      exact hname
    · rw [if_pos hname]
      exact mem_append_right _ mem_cons_self

/-- Signatures one after another, of which one comes with another body: its function is declared, or
refused since its name is taken, whatever the body is. -/
lemma Draft.Beside.exists_declare {file file' : SourceFile} (hfile : file.Akin file')
    (decl : Syntax.FunctionDecl) (body : Syntax.Stmt) {d d' : Draft} (h : d.Beside [] [] d')
    (hmem : file.program.package ∈ d.catalog.names)
    (before after : List Syntax.FunctionDecl) :
    let later := (before ++ decl :: after).foldl (·.declare file ·) d
    ∃ found : Option FunctionSymbol,
      Settles later.catalog later.errors file.index file.program.package decl found ∧
      later.Beside (found.toList.map (pendingAt file.index decl))
        (found.toList.map (pendingAt file.index { decl with body }))
        ((before ++ { decl with body } :: after).foldl (·.declare file' ·) d') := by
  simp only [foldl_append, foldl_cons]
  have hbefore := foldl_rel (l := before)
    (r := fun d d' : Draft => file.program.package ∈ d.catalog.names ∧
      d.Beside [] [] d') ⟨hmem, h⟩ fun other _ d d' hd =>
        ⟨(Catalog.names_grow _ _ _).symm ▸ hd.1, hd.2.declare hfile other⟩
  exact ⟨_, foldl_rel (l := after)
    (r := fun d d' : Draft =>
      Settles d.catalog d.errors file.index file.program.package decl _ ∧ d.Beside _ _ d')
    ⟨settles_declare hbefore.1 decl, hbefore.2.fork_declare hfile decl body⟩
    fun other _ d d' hd => ⟨hd.1.apply _ _, hd.2.declare hfile other⟩⟩

/-- A file with the declaration of a function among its members. -/
def Syntax.Program.around (members members' : List Syntax.Member) (decl : Syntax.FunctionDecl) :
    Syntax.Program :=
  ⟨members ++ .function decl :: members'⟩

section Around

variable (members members' : List Syntax.Member) (decl : Syntax.FunctionDecl)

lemma package_around (other : Syntax.FunctionDecl) :
    (Syntax.Program.around members members' other).package =
      (Syntax.Program.around members members' decl).package := by
  simp only [Syntax.Program.package, Syntax.Program.around, findSome?_append,
    findSome?_cons, Syntax.Program.packageOf?]

variable (index : Nat) (body : Syntax.Stmt) {here here' : List Pending} {d d' : Draft}

lemma akin_around : SourceFile.Akin ⟨index, .around members members' decl⟩
    ⟨index, .around members members' { decl with body }⟩ :=
  ⟨rfl, package_around members members' decl _⟩

lemma Draft.Beside.foldl_around (h : d.Beside here here' d') (package : String)
    {task : Syntax.Member → Task} (htask : ∀ decl, task (.function decl) = fun _ _ => {}) :
    ((Syntax.Program.around members members' decl).members.foldl
        (fun d member => d.apply package (task member d.catalog d.ids)) d).Beside here here'
      ((Syntax.Program.around members members' { decl with body }).members.foldl
        (fun d member => d.apply package (task member d.catalog d.ids)) d') := by
  simp only [Syntax.Program.around, foldl_append, foldl_cons, htask]
  have hbefore := foldl_rel (l := members) h fun a _ _ _ h => h.task package (task a)
  exact foldl_rel (l := members') (hbefore.apply package rfl rfl) fun a _ _ _ h =>
    h.task package (task a)

/-- A phase that does nothing with functions goes through the files alike. -/
lemma Draft.Beside.step_members {t : FileTasks Syntax.Member} (hitems : t.items = (·.members))
    (hakin : ∀ {file file' : SourceFile}, file.Akin file' → t.task file' = t.task file)
    (hfunction : ∀ file decl, t.task file (.function decl) = fun _ _ => {})
    (h : d.Beside here here' d') :
    (t.phase.step d ⟨index, .around members members' decl⟩).Beside here here'
      (t.phase.step d' ⟨index, .around members members' { decl with body }⟩) := by
  have haround := akin_around members members' decl index body
  rw [t.step_phase, t.step_phase, hakin haround, haround.package, hitems]
  exact h.foldl_around members members' decl body _ (hfunction _)

/-- The function is declared, or refused since its name is taken, whatever its body is. -/
lemma Draft.Beside.exists_step_signaturePhase (h : d.Beside [] [] d')
    (hmem : (Syntax.Program.around members members' decl).package ∈
      d.catalog.names) :
    let later := signatureTasks.phase.step d ⟨index, .around members members' decl⟩
    let later' := signatureTasks.phase.step d' ⟨index, .around members members' { decl with body }⟩
    ∃ found : Option FunctionSymbol,
      Settles later.catalog later.errors index (Syntax.Program.around members members' decl).package
        decl found ∧
      later.Beside (found.toList.map (pendingAt index decl))
        (found.toList.map (pendingAt index { decl with body })) later' := by
  intro later later'
  have hakin := akin_around members members' decl index body
  have hfunctions (decl : Syntax.FunctionDecl) :
      signatureTasks.items (.around members members' decl) =
        (Syntax.Program.mk members).functions ++ decl :: (Syntax.Program.mk members').functions :=
    filterMap_append
  have hlater := signatureTasks.step_phase d ⟨index, .around members members' decl⟩
  have hlater' := signatureTasks.step_phase d' ⟨index, .around members members' { decl with body }⟩
  rw [hfunctions] at hlater hlater'
  rw [show later = _ from hlater, show later' = _ from hlater']
  exact h.exists_declare hakin decl body hmem _ _

/-- **The body of a function has no part in what files declare**, but for the pending function that
it is the body of. -/
theorem exists_beside_declaredDraft {c : Catalog} (hd : c.Distinct) (ids : Ids)
    (before after : List SourceFile) :
    let d := declaredDraft c ids (before ++ ⟨index, .around members members' decl⟩ :: after)
    ∃ found : Option FunctionSymbol,
      Settles d.catalog d.errors index (Syntax.Program.around members members' decl).package decl
        found ∧
      d.Beside (found.toList.map (pendingAt index decl))
        (found.toList.map (pendingAt index { decl with body }))
        (declaredDraft c ids
          (before ++ ⟨index, .around members members' { decl with body }⟩ :: after)) := by
  intro d
  obtain ⟨files, hfiles⟩ : ∃ files : List SourceFile,
    files = before ++ ⟨index, .around members members' decl⟩ :: after := ⟨_, rfl⟩
  have hopened : openedDraft c ids
        (before ++ ⟨index, .around members members' { decl with body }⟩ :: after) =
      openedDraft c ids files := by
    simp only [hfiles, openedDraft, foldl_append, foldl_cons,
      package_around members members' decl]
  have hload := ((Draft.Beside.refl (openedDraft c ids files)).run loadTasks.phase
    before).step_members (t := loadTasks) members members' decl index body rfl loadTask_eq
    fun _ _ => rfl
  have hloads := hload.run_split after
  have hmem : (Syntax.Program.around members members' decl).package ∈
      (signatureTasks.phase.run before (loadTasks.phase.run files
        (openedDraft c ids files))).catalog.names := by
    rw [Phase.names_run, Phase.names_run]
    refine (opened_openedDraft ids files hd).2.2 ⟨index, .around members members' decl⟩ ?_
    rw [hfiles]
    exact mem_append_right _ mem_cons_self
  rw [← hfiles] at hloads
  obtain ⟨found, hsettles, hsignature⟩ := (hloads.run signatureTasks.phase
    before).exists_step_signaturePhase members members' decl index body hmem
  have hsignatures := hsignature.run_split after
  subst hfiles
  refine ⟨found, Settles.run ?_ globalTasks.phase _, ?_⟩
  · rw [Phase.run, foldl_append, foldl_cons]
    exact hsettles.run signatureTasks.phase after
  · rw [declaredDraft, hopened]
    exact ((hsignatures.run globalTasks.phase before).step_members (t := globalTasks) members
      members' decl index body rfl globalTask_eq fun _ _ => rfl).run_split after

end Around

end Parcel
