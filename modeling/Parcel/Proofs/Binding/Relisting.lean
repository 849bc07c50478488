import Parcel.Proofs.Binding.Parallel
import Parcel.Proofs.Sessions
import Parcel.Proofs.Text.Suggestion

/-!
# Catalogs that list their entries in another order

Packages, types and containers are found by their names, and what is suggested for an unknown name
does not depend on the order of the candidates. So catalogs with the same entries match, with all
ids as they are, and binding does the same on both, also if the order changes between any two steps.
-/

namespace Parcel

open List

variable {c c' : Catalog} (file : SourceFile)

/-! ### The same entries -/

namespace Catalog

/-- Names are keys: no two packages, types or containers have the same. -/
structure Keyed (c : Catalog) : Prop where
  packages : c.Distinct
  types : (c.types.map (·.name)).Nodup
  containers : (c.containers.map (·.type)).Nodup

/-- The same packages, types and containers, each listed in another order. -/
structure Relisted (c c' : Catalog) : Prop where
  packages : c'.packages.Perm c.packages
  types : c'.types.Perm c.types
  containers : c'.containers.Perm c.containers

lemma Relisted.trans {c'' : Catalog} (h : c.Relisted c') (h' : c'.Relisted c'') :
    c.Relisted c'' where
  packages := h'.packages.trans h.packages
  types := h'.types.trans h.types
  containers := h'.containers.trans h.containers

lemma Relisted.package? (h : c.Relisted c') (hkeyed : c.Keyed) (name : String) :
    c'.package? name = c.package? name :=
  find?_key_eq_of_perm hkeyed.packages h.packages name

/-- Names are looked up alike, and they are suggested alike. -/
lemma Relisted.matches (h : c.Relisted c') (hkeyed : c.Keyed) : c.Matches .refl c' where
  type? name := find?_key_eq_of_perm hkeyed.types h.types name
  similarType name := Text.closest_perm name (h.types.map _)
  container? type := by
    rw [Catalog.container?, find?_key_eq_of_perm hkeyed.containers h.containers]
    cases hfound : c.container? type with
    | none => exact hfound
    | some container => exact hfound.trans (congrArg some container.rename_refl.symm)
  functions package := by
    rw [h.package? hkeyed]
    simp only [FunctionTable.rename_refl]

lemma Relisted.ensurePackage (h : c.Relisted c') (hkeyed : c.Keyed) (name : String) :
    (c.ensurePackage name).Relisted (c'.ensurePackage name) := by
  unfold Catalog.ensurePackage
  rw [h.package? hkeyed]
  split
  · exact h
  · exact ⟨h.packages.append_right _, h.types, h.containers⟩

lemma Relisted.update (h : c.Relisted c') (name : String) (f : Package → Package) :
    (c.update name f).Relisted (c'.update name f) :=
  ⟨h.packages.map _, h.types, h.containers⟩

lemma Keyed.of_sameTypes (h : c.Keyed) (hsame : c.SameTypes c') (hdistinct : c'.Distinct) :
    c'.Keyed :=
  ⟨hdistinct, hsame.types ▸ h.types, hsame.containers ▸ h.containers⟩

lemma Keyed.ensurePackage (h : c.Keyed) (name : String) : (c.ensurePackage name).Keyed :=
  h.of_sameTypes (sameTypes_ensurePackage c name) (extends_ensurePackage h.packages name).distinct

end Catalog

/-! ### Steps of binding -/

/-- Builds that differ in the order in which their catalogs list the entries, which have keys. -/
structure Build.Relisted (b b' : Build) : Prop where
  catalog : b.catalog.Relisted b'.catalog
  keyed : b.catalog.Keyed
  ids : b'.ids = b.ids
  program : b'.program = b.program
  errors : b'.errors = b.errors

/-- **Steps concur** if on builds that differ in the order of entries alone they give the same
result, and such builds again. -/
def Concurs {α : Type} (step step' : BuildM α) : Prop :=
  ∀ b b', b.Relisted b' →
    (step'.run b').1 = (step.run b).1 ∧ (step.run b).2.Relisted (step'.run b').2

section Rules

variable {α β : Type}

lemma concurs_pure (a : α) : Concurs (pure a) (pure a) :=
  fun _ _ h => ⟨rfl, h⟩

lemma Concurs.bind {step step' : BuildM α} {next next' : α → BuildM β} (h : Concurs step step')
    (hnext : ∀ a, Concurs (next a) (next' a)) : Concurs (step >>= next) (step' >>= next') := by
  intro b b' hb
  obtain ⟨hresult, hbuild⟩ := h b b' hb
  rw [build_run_bind, build_run_bind, hresult]
  exact hnext _ _ _ hbuild

lemma Concurs.get {next next' : Build → BuildM β}
    (h : ∀ b b', b.Relisted b' → Concurs (next b) (next' b')) :
    Concurs (get >>= next) (get >>= next') :=
  fun b b' hb => h b b' hb b b' hb

lemma concurs_forM {f f' : α → BuildM Unit} (l : List α) (h : ∀ a ∈ l, Concurs (f a) (f' a)) :
    Concurs (l.forM f) (l.forM f') := by
  induction l with
  | nil => exact concurs_pure ()
  | cons a l ih =>
    exact (h a mem_cons_self).bind fun _ => ih fun a ha => h a (mem_cons_of_mem _ ha)

lemma concurs_mapM {f f' : α → BuildM β} (l : List α) (h : ∀ a ∈ l, Concurs (f a) (f' a)) :
    Concurs (l.mapM f) (l.mapM f') := by
  induction l with
  | nil =>
    rw [mapM_nil, mapM_nil]
    exact concurs_pure []
  | cons a l ih =>
    rw [mapM_cons, mapM_cons]
    exact (h a mem_cons_self).bind fun b =>
      (ih fun a ha => h a (mem_cons_of_mem _ ha)).bind fun bs => concurs_pure (b :: bs)

lemma concurs_modify {f : Build → Build} (h : ∀ b b', b.Relisted b' → (f b).Relisted (f b')) :
    Concurs (modify f) (modify f) :=
  fun b b' hb => ⟨rfl, h b b' hb⟩

lemma concurs_freshFunction : Concurs BuildM.freshFunction BuildM.freshFunction := by
  rintro b ⟨catalog, ids, program, errors⟩ hb
  obtain rfl : ids = b.ids := hb.ids
  exact ⟨rfl, hb.catalog, hb.keyed, rfl, hb.program, hb.errors⟩

lemma concurs_register {change : Catalog → Option Catalog}
    (h : ∀ c c', c.Relisted c' → c.Keyed →
      Option.Rel (fun d d' => d.Relisted d' ∧ d.Keyed) (change c) (change c')) :
    Concurs (BuildM.register change) (BuildM.register change) := by
  intro b b' hb
  have hchange := h _ _ hb.catalog hb.keyed
  rw [register_run, register_run]
  generalize change b.catalog = catalog, change b'.catalog = catalog' at hchange ⊢
  cases hchange with
  | some hd => exact ⟨rfl, hd.1, hd.2, hb.ids, hb.program, hb.errors⟩
  | none => exact ⟨rfl, hb⟩

end Rules

/-! ### All steps -/

lemma Catalog.Relisted.change? (h : c.Relisted c') (hkeyed : c.Keyed) (name : String)
    (f : Package → Option Package) (hd : ∀ d, c.change? name f = some d → d.Keyed) :
    Option.Rel (fun d d' => d.Relisted d' ∧ d.Keyed) (c.change? name f) (c'.change? name f) := by
  have hensure := h.ensurePackage hkeyed name
  unfold Catalog.change? at hd ⊢
  rw [hensure.package? (hkeyed.ensurePackage name)]
  cases hp : ((c.ensurePackage name).package? name).bind f with
  | none => exact .none
  | some =>
    rw [hp] at hd
    exact .some ⟨hensure.update name _, hd _ rfl⟩

/-- Files are entered at matching places. -/
lemma Build.Relisted.enter {b b' : Build} (h : b.Relisted b') (file : SourceFile)
    (package : String) (function : Option FunctionSymbol) :
    (b.enter file package function).Matches .refl (b'.enter file package function) := by
  have hpackage (name : String) : b'.catalog.package? name = b.catalog.package? name :=
    h.catalog.package? h.keyed name
  refine ⟨h.catalog.matches h.keyed, rfl, ?_, ?_, ?_, rfl⟩
  · simp only [Package.rename_refl, Option.map_id']
    exact hpackage package
  · simp only [FunctionSymbol.rename_refl, Option.map_id']
    rfl
  · show Scopes.ofGlobals (Option.getD _ _) = _
    rw [hpackage, Scopes.rename_refl]
    rfl

/-- What the binder does is the same if it is bound in parallel with itself. -/
lemma Parallel.concurs {α : Type} {f : α → α} {action : BindM α}
    (h : Parallel .refl f action action) (hf : ∀ a, f a = a) (file : SourceFile) :
    Concurs (BuildM.inFile file action) (BuildM.inFile file action) := by
  intro b b' hb
  obtain ⟨n, scopes, loops, new, a, hrun, hrun'⟩ :=
    h.agree hf (hb.enter file file.program.package none) hb.ids
  rw [inFile_run hrun, inFile_run hrun']
  refine ⟨rfl, hb.catalog, hb.keyed, ?_, hb.program, ?_⟩
  · exact congrArg (· + n) hb.ids
  · exact congrArg (fun errors => (errors.toList ++ new.map (FileError.mk (some file.index))).toArray)
      hb.errors

lemma concurs_report (cause : BindCause) (span : Span) :
    Concurs (BuildM.inFile file (BindM.report cause span))
      (BuildM.inFile file (BindM.report cause span)) :=
  (mirrors_report cause span).parallel.concurs (fun _ => rfl) file

/-- **Bodies are bound alike.** -/
theorem Build.Relisted.bodyOf {b b' : Build} (h : b.Relisted b') (f : Pending) :
    ∃ n scopes loops new body, b.bodyOf f = (body, (b.inBody f).moved n scopes loops new) ∧
      b'.bodyOf f = (body, (b'.inBody f).moved n scopes loops new) := by
  have hparallel := parallel_bindBody (ρ := .refl) f.symbol f.decl
  rw [f.symbol.rename_refl] at hparallel
  exact hparallel.agree Code.Stmt.rename_refl (h.enter f.file _ _) h.ids

lemma concurs_bindPackage : Concurs (bindPackage file) (bindPackage file) :=
  concurs_modify fun _ _ hb => ⟨hb.catalog.ensurePackage hb.keyed _, hb.keyed.ensurePackage _, hb.ids,
    hb.program, hb.errors⟩

lemma concurs_bindLoad (member : Syntax.Member) :
    Concurs (bindLoad file member) (bindLoad file member) := by
  cases member with
  | load package =>
    refine Concurs.get fun b b' hb => ?_
    simp only [hb.catalog.package? hb.keyed,
      Text.closest_perm _ (hb.catalog.packages.map (·.name))]
    split
    · exact concurs_modify fun b b' hb => ⟨(hb.catalog.ensurePackage hb.keyed _).update _ _,
        hb.keyed.of_sameTypes (Catalog.sameTypes_update _ _ _)
          (Catalog.extends_addLoad hb.keyed.packages _ _ _).distinct, hb.ids, hb.program, hb.errors⟩
    · exact concurs_report _ _ _
  | _ => exact concurs_pure ()

lemma parallel_bindParams {ρ : Renaming} (params : List Syntax.Param) :
    Parallel ρ (List.map (·.rename ρ)) (params.mapM bindParam) (params.mapM bindParam) := by
  induction params with
  | nil =>
    rw [mapM_nil]
    exact parallel_pure _ []
  | cons param params ih =>
    rw [mapM_cons]
    refine ((mirrors_bindType param.type).parallel.bind fun type =>
      parallel_freshVar _ type _).bind fun v => ?_
    exact ih.bind fun vars => parallel_pure _ (v :: vars)

lemma mirrors_bindReturnType {ρ : Renaming} (clause : Option Syntax.TypeClause) :
    Mirrors ρ id (bindReturnType clause) (bindReturnType clause) := by
  cases clause with
  | none => exact mirrors_pure id Ty.void
  | some clause => exact mirrors_bindType clause

lemma concurs_bindSignature (decl : Syntax.FunctionDecl) :
    Concurs (bindSignature file decl) (bindSignature file decl) := by
  refine ((parallel_bindParams decl.params).concurs map_rename_refl file).bind fun params => ?_
  refine ((mirrors_bindReturnType decl.returnType).parallel.concurs (fun _ => rfl) file).bind
    fun returnType => concurs_freshFunction.bind fun id => ?_
  refine (concurs_register fun c c' h hkeyed => ?_).bind fun registered => ?_
  · exact h.change? hkeyed _ _ fun d hd => hkeyed.of_sameTypes
      (Catalog.sameTypes_change? hd) (Catalog.extends_registerFunction? hkeyed.packages hd).distinct
  · cases registered with
    | true => exact concurs_pure _
    | false => exact (concurs_report _ _ _).bind fun _ => concurs_pure _

lemma concurs_bindGlobal (member : Syntax.Member) :
    Concurs (bindGlobal file member) (bindGlobal file member) := by
  cases member with
  | global decl =>
    have hdecl : Concurs (BuildM.inFile file (bindVarDecl decl))
        (BuildM.inFile file (bindVarDecl decl)) := by
      refine (mirrors_bindVarDecl decl).parallel.concurs (fun result => ?_) file
      simp only [Code.Expr.rename_refl, Option.map_id']
    refine hdecl.bind fun bound => ?_
    refine ((parallel_freshVar _ _ _).concurs Var.rename_refl file).bind fun v => ?_
    refine (concurs_register fun c c' h hkeyed => ?_).bind fun registered => ?_
    · exact h.change? hkeyed _ _ fun d hd => hkeyed.of_sameTypes
        (Catalog.sameTypes_change? hd) (Catalog.extends_registerGlobal? hkeyed.packages hd).distinct
    · cases registered with
      | true =>
        refine concurs_modify fun b b' hb => ⟨hb.catalog, hb.keyed, hb.ids, ?_, hb.errors⟩
        rw [hb.program]
      | false => exact concurs_report _ _ _
  | _ => exact concurs_pure ()

lemma concurs_bindFunction (pending : Pending) :
    Concurs (bindFunction pending) (bindFunction pending) := by
  refine fun b b' hb => ⟨Subsingleton.elim _ _, ?_⟩
  obtain ⟨n, scopes, loops, new, body, hbody, hbody'⟩ := hb.bodyOf pending
  rw [bindFunction_run, bindFunction_run, hbody, hbody']
  refine ⟨hb.catalog, hb.keyed, ?_, ?_, ?_⟩
  · exact congrArg (· + n) hb.ids
  · exact congrArg (Code.Program.insert · _) hb.program
  · exact congrArg (fun errors =>
      (errors.toList ++ new.map (FileError.mk (some pending.file.index))).toArray) hb.errors

/-! ### Files -/

/-- A step of binding, before which the entries of the catalog come to be listed in another
order. -/
def relisting (order : Build → Catalog) {α : Type} (step : BuildM α) : BuildM α := do
  modify fun build => { build with catalog := order build }
  step

/-- Binds files, in order; each step is taken in the way that `take` gives. -/
def buildFilesWith (take : {α : Type} → BuildM α → BuildM α) (files : List SourceFile) :
    BuildM Unit := do
  files.forM fun file => take (bindPackage file)
  files.forM fun file => file.program.members.forM fun member => take (bindLoad file member)
  let pending ← files.mapM fun file => do
    let pending ← file.program.functions.mapM fun decl => take (bindSignature file decl)
    return pending.filterMap id
  files.forM fun file => file.program.members.forM fun member => take (bindGlobal file member)
  pending.flatten.forM fun pending => take (bindFunction pending)

lemma buildFilesWith_id (files : List SourceFile) :
    buildFilesWith (fun step => step) files = buildFiles files :=
  rfl

lemma Concurs.relisting {α : Type} {step step' : BuildM α} (h : Concurs step step')
    {order : Build → Catalog} (horder : ∀ b : Build, b.catalog.Relisted (order b)) :
    Concurs step (Parcel.relisting order step') :=
  fun b b' hb => h b _ ⟨hb.catalog.trans (horder b'), hb.keyed, hb.ids, hb.program, hb.errors⟩

/-- **Files are bound alike** in whatever order the entries of the catalog come to be listed before
each step. -/
theorem concurs_buildFilesWith {order : Build → Catalog}
    (horder : ∀ b : Build, b.catalog.Relisted (order b)) (files : List SourceFile) :
    Concurs (buildFiles files) (buildFilesWith (relisting order) files) := by
  refine (concurs_forM _ fun file _ => (concurs_bindPackage file).relisting horder).bind fun _ => ?_
  refine (concurs_forM _ fun file _ => concurs_forM _ fun member _ =>
    (concurs_bindLoad file member).relisting horder).bind fun _ => ?_
  refine (concurs_mapM _ fun file _ => (concurs_mapM _ fun decl _ =>
    (concurs_bindSignature file decl).relisting horder).bind fun pending =>
      concurs_pure (pending.filterMap id)).bind fun pending => ?_
  refine (concurs_forM _ fun file _ => concurs_forM _ fun member _ =>
    (concurs_bindGlobal file member).relisting horder).bind fun _ => ?_
  exact concurs_forM _ fun pending _ => (concurs_bindFunction pending).relisting horder

end Parcel
