import Parcel.Proofs.Binding.Elaboration
import Parcel.Proofs.Binding.Shape
import Parcel.Proofs.Code.Program

/-!
# The shape of bound programs

What is true of every bound program, whether or not errors are reported: its labels, variables and
functions are taken from the counters, each once; its bodies are structured and touch only what is
visible; and the variables of packages are those that the program declares.
-/

namespace Parcel

open Code BindM BuildM List

variable {p : Program} {package : String} {α β : Type} {file : SourceFile}
  {R : Stmt → Progress → Prop} (b : Build) (f : Pending)

/-! ### Loops of building -/

lemma build_run_bind (action : BuildM α) (next : α → BuildM β) (b : Build) :
    (action >>= next).run b = (next (action.run b).1).run (action.run b).2 := rfl

/-- What every step of a loop keeps is kept by the loop. -/
lemma forM_inv {f : α → BuildM Unit} {I : Build → Prop} (xs : List α)
    (step : ∀ a ∈ xs, ∀ b, I b → I ((f a).run b).2) (b : Build) (h : I b) :
    I ((xs.forM f).run b).2 := by
  induction xs generalizing b with
  | nil => exact h
  | cons a xs ih =>
    exact ih (fun a ha => step a (mem_cons_of_mem _ ha)) _ (step a mem_cons_self b h)

/-- The same for a loop that collects results. -/
lemma mapM_inv {f : α → BuildM β} {I : List β → Build → Prop} (xs : List α)
    (step : ∀ a ∈ xs, ∀ done b, I done b → I (done ++ [((f a).run b).1]) ((f a).run b).2)
    (done : List β) (b : Build) (h : I done b) :
    I (done ++ ((xs.mapM f).run b).1) ((xs.mapM f).run b).2 := by
  induction xs generalizing done b with
  | nil =>
    rw [mapM_nil]
    exact (append_nil done).symm ▸ h
  | cons a xs ih =>
    have hstep := step a mem_cons_self done b h
    have hrest := ih (fun a ha => step a (mem_cons_of_mem _ ha)) _ _ hstep
    rw [append_assoc] at hrest
    rw [mapM_cons]
    exact hrest

/-! ### Members of packages -/

namespace Package

variable {p q : Package}

lemma mem_addName {names : List String} {name other : String} :
    other ∈ addName names name ↔ other ∈ names ∨ other = name := by
  unfold addName
  split
  next h => exact (or_iff_left_of_imp fun heq => heq ▸ h).symm
  next => rw [mem_append, mem_singleton]

/-- A registration leaves the name and the loads of the package. -/
lemma kept_of_registerFunction? {f : FunctionSymbol} (h : p.registerFunction? f = some q) :
    q.name = p.name ∧ q.loads = p.loads := by
  obtain ⟨-, ⟨⟩⟩ := Option.ite_none_left_eq_some.mp h
  exact ⟨rfl, rfl⟩

lemma kept_of_registerGlobal? {v : Var} (h : p.registerGlobal? v = some q) :
    q.name = p.name ∧ q.loads = p.loads := by
  obtain ⟨-, ⟨⟩⟩ := Option.ite_none_left_eq_some.mp h
  exact ⟨rfl, rfl⟩

end Package

/-- Whether a package of the catalog has a variable. -/
def Catalog.HasGlobal (c : Catalog) (v : Var) : Prop :=
  ∃ p ∈ c.packages, v ∈ p.globals

/-- Whether a package of the catalog has a function. -/
def Catalog.HasFunction (c : Catalog) (f : FunctionSymbol) : Prop :=
  ∃ p ∈ c.packages, f ∈ p.functions

namespace Catalog

variable {f : FunctionSymbol} {v : Var} {included : Bool}

section Members

variable {α : Type} {members : Package → List α} {a : α} {c : Catalog} {name : String}

lemma mem_ensurePackage (hempty : members { name } = []) :
    (∃ p ∈ (c.ensurePackage name).packages, a ∈ members p) ↔ ∃ p ∈ c.packages, a ∈ members p := by
  unfold ensurePackage
  split
  · exact Iff.rfl
  · simp [hempty]

lemma mem_of_update {f : Package → Package}
    (h : ∃ p ∈ (c.update name f).packages, a ∈ members p) :
    (∃ p ∈ c.packages, a ∈ members p) ∨ ∃ p ∈ c.packages, a ∈ members (f p) := by
  obtain ⟨p, hp, ha⟩ := h
  obtain ⟨q, hq, rfl⟩ := mem_map.mp hp
  split at ha
  · exact .inr ⟨q, hq, ha⟩
  · exact .inl ⟨q, hq, ha⟩

lemma mem_of_package? {p : Package} (h : c.package? name = some p) : p ∈ c.packages :=
  mem_of_find?_eq_some h

lemma name_of_package? {p : Package} (h : c.package? name = some p) : p.name = name := by
  have hfound := find?_some h
  exact of_decide_eq_true hfound

end Members

section Registration

variable {c c' : Catalog} {name : String} {change : Package → Option Package}

/-- The catalog after a change of a package, which is created if need be; the change may be
refused. -/
def change? (c : Catalog) (name : String) (change : Package → Option Package) : Option Catalog :=
  match ((c.ensurePackage name).package? name).bind change with
  | some p => some ((c.ensurePackage name).update name fun _ => p)
  | none => none

lemma exists_of_change? (h : c.change? name change = some c') :
    ∃ p q, (c.ensurePackage name).package? name = some p ∧ change p = some q ∧
      c' = (c.ensurePackage name).update name fun _ => q := by
  unfold change? at h
  split at h
  next q hq =>
    obtain ⟨p, hp, hq⟩ := Option.bind_eq_some_iff.mp hq
    exact ⟨p, q, hp, hq, (Option.some.inj h).symm⟩
  next => cases h

/-- A member after a change that adds some was there before or is one of these. -/
lemma mem_of_change? {α : Type} {members : Package → List α} {a : α} {new : List α}
    (hempty : members { name } = [])
    (hchange : ∀ p q, change p = some q → members q = members p ++ new)
    (h : c.change? name change = some c') (ha : ∃ p ∈ c'.packages, a ∈ members p) :
    (∃ p ∈ c.packages, a ∈ members p) ∨ a ∈ new := by
  obtain ⟨p, q, hp, hq, rfl⟩ := exists_of_change? h
  rcases mem_of_update ha with ha | ⟨-, -, ha⟩
  · exact .inl ((mem_ensurePackage hempty).mp ha)
  · rw [hchange p q hq] at ha
    rcases mem_append.mp ha with ha | ha
    · exact .inl ((mem_ensurePackage hempty).mp ⟨p, mem_of_package? hp, ha⟩)
    · exact .inr ha

end Registration

lemma hasGlobal_ensurePackage {c : Catalog} (name : String) :
    (c.ensurePackage name).HasGlobal v ↔ c.HasGlobal v :=
  mem_ensurePackage rfl

lemma hasFunction_ensurePackage {c : Catalog} (name : String) :
    (c.ensurePackage name).HasFunction f ↔ c.HasFunction f :=
  mem_ensurePackage rfl

lemma hasGlobal_of_globalsOf {c : Catalog} {name : String} (h : v ∈ c.globalsOf name) :
    c.HasGlobal v := by
  unfold globalsOf at h
  cases hp : c.package? name with
  | none =>
    rw [hp] at h
    cases h
  | some p =>
    rw [hp] at h
    exact ⟨p, mem_of_package? hp, h⟩

section Registration

variable {c c' : Catalog} {name : String}

lemma hasGlobal_registerFunction? (h : c.registerFunction? name f = some c') (hv : c'.HasGlobal v) :
    c.HasGlobal v := by
  refine (mem_of_change? rfl (fun p q hq => ?_) h hv).resolve_right not_mem_nil
  obtain ⟨-, ⟨⟩⟩ := Option.ite_none_left_eq_some.mp hq
  exact (append_nil _).symm

lemma hasFunction_registerFunction? (h : c.registerFunction? name f = some c')
    {g : FunctionSymbol} (hg : c'.HasFunction g) : c.HasFunction g ∨ g = f := by
  refine (mem_of_change? rfl (fun p q hq => ?_) h hg).imp_right mem_singleton.mp
  obtain ⟨-, ⟨⟩⟩ := Option.ite_none_left_eq_some.mp hq
  rfl

lemma hasGlobal_registerGlobal? {w : Var} (h : c.registerGlobal? name w = some c')
    (hv : c'.HasGlobal v) : c.HasGlobal v ∨ v = w := by
  refine (mem_of_change? rfl (fun p q hq => ?_) h hv).imp_right mem_singleton.mp
  obtain ⟨-, ⟨⟩⟩ := Option.ite_none_left_eq_some.mp hq
  rfl

lemma hasFunction_registerGlobal? {w : Var} (h : c.registerGlobal? name w = some c')
    (hf : c'.HasFunction f) : c.HasFunction f := by
  refine (mem_of_change? rfl (fun p q hq => ?_) h hf).resolve_right not_mem_nil
  obtain ⟨-, ⟨⟩⟩ := Option.ite_none_left_eq_some.mp hq
  exact (append_nil _).symm

end Registration

/-! ### Packages that are there -/

/-- The names of the packages. -/
abbrev names (c : Catalog) : List String :=
  c.packages.map (·.name)

/-- Whether there is a package of the name. -/
def Has (c : Catalog) (name : String) : Prop :=
  (c.package? name).isSome

/-- Every package that a package loads is there. -/
def Linked (c : Catalog) : Prop :=
  ∀ p ∈ c.packages, ∀ name ∈ p.loads, c.Has name

section Links

variable {c c' : Catalog} {name other : String} {change : Package → Option Package}

lemma has_iff : c.Has name ↔ name ∈ c.names := by
  simp [Has, package?, find?_isSome]

lemma has_ensurePackage : (c.ensurePackage name).Has other ↔ c.Has other ∨ other = name := by
  unfold ensurePackage
  split
  next h => exact (or_iff_left_of_imp fun heq => heq ▸ h).symm
  next => simp [has_iff, names]

/-- A package that is replaced by one of the same name stays there. -/
lemma names_update {f : Package → Package}
    (hf : ∀ p ∈ c.packages, p.name = name → (f p).name = p.name) :
    (c.update name f).names = c.names := by
  rw [update, names, map_map]
  refine map_congr_left fun p hp => ?_
  rw [Function.comp_apply]
  split
  next h => exact hf p hp h
  next => rfl

lemma has_update {f : Package → Package}
    (hf : ∀ p ∈ c.packages, p.name = name → (f p).name = p.name) :
    (c.update name f).Has other ↔ c.Has other := by
  rw [has_iff, has_iff, names_update hf]

lemma Linked.ensurePackage (h : c.Linked) (name : String) : (c.ensurePackage name).Linked := by
  have hold (p : Package) (hp : p ∈ c.packages) (loaded : String) (hloaded : loaded ∈ p.loads) :
      (c.ensurePackage name).Has loaded :=
    has_ensurePackage.mpr (.inl (h p hp loaded hloaded))
  intro p hp
  unfold Catalog.ensurePackage at hp
  split at hp
  · exact hold p hp
  · rcases mem_append.mp hp with hp | hp
    · exact hold p hp
    · rw [mem_singleton.mp hp]
      exact forall_mem_nil _

/-- Packages may be replaced by ones of the same names that load only packages that are there. -/
lemma Linked.update (h : c.Linked) {f : Package → Package}
    (hname : ∀ p ∈ c.packages, p.name = name → (f p).name = p.name)
    (hloads : ∀ p ∈ c.packages, p.name = name → ∀ loaded ∈ (f p).loads, c.Has loaded) :
    (c.update name f).Linked := by
  intro p hp loaded hloaded
  rw [has_update hname]
  obtain ⟨q, hq, rfl⟩ := mem_map.mp hp
  split at hloaded
  next heq => exact hloads q hq heq loaded hloaded
  next => exact h q hq loaded hloaded

/-- A change of a package, if it leaves the name and the loads, leaves all packages there. -/
lemma has_change? (hchange : ∀ p q, change p = some q → q.name = p.name ∧ q.loads = p.loads)
    (h : c.change? name change = some c') : c'.Has other ↔ c.Has other ∨ other = name := by
  obtain ⟨p, q, hp, hq, rfl⟩ := exists_of_change? h
  rw [has_update, has_ensurePackage]
  intro _ _ hname
  rw [(hchange p q hq).1, name_of_package? hp, hname]

lemma Linked.change? (hlinked : c.Linked)
    (hchange : ∀ p q, change p = some q → q.name = p.name ∧ q.loads = p.loads)
    (h : c.change? name change = some c') : c'.Linked := by
  obtain ⟨p, q, hp, hq, rfl⟩ := exists_of_change? h
  obtain ⟨hname, hloads⟩ := hchange p q hq
  have hensured := hlinked.ensurePackage name
  refine hensured.update (fun _ _ h => (hname.trans (name_of_package? hp)).trans h.symm)
    fun _ _ _ => ?_
  rw [hloads]
  exact hensured p (mem_of_package? hp)

/-- A package that is there is loaded. -/
lemma Linked.addLoad (hlinked : c.Linked) {loaded : String} (hloaded : c.Has loaded)
    (name : String) (included : Bool) : (c.addLoad name loaded included).Linked := by
  have hensured := hlinked.ensurePackage name
  refine hensured.update (fun _ _ _ => rfl) fun p hp _ other hother => ?_
  rcases Package.mem_addName.mp hother with hother | rfl
  · exact hensured p hp other hother
  · exact has_ensurePackage.mpr (.inl hloaded)

end Links

end Catalog

lemma register_run (change : Catalog → Option Catalog) (b : Build) :
    (register change).run b = match change b.catalog with
      | some catalog => (true, { b with catalog })
      | none => (false, b) := by
  show register change b = _
  simp only [register, modifyGet, MonadStateOf.modifyGet, StateT.modifyGet]
  rfl

/-! ### Signatures -/

/-- Where a file is bound, outside of functions. -/
def Build.entered (b : Build) (file : SourceFile) : Binder :=
  b.enter file file.program.package none

lemma inFile_run {action : BindM α} {b : Build} {a : α} {b' : Binder}
    (h : action.run (b.entered file) = (a, b')) : (inFile file action).run b = (a, b'.toBuild) := by
  show ((action.run (b.entered file)).1, (action.run (b.entered file)).2.toBuild) = _
  rw [h]

/-- A clause stands for the type, and no error is reported for it. -/
def Catalog.Denotes (c : Catalog) (type : Ty) : Prop :=
  ∃ (b : Binder) (clause : Syntax.TypeClause), b.catalog = c ∧
    (bindType clause).run (b.reported #[]) = (type, b.reported #[])

lemma bindType_binds (clause : Syntax.TypeClause) (b : Binder) (errs : Array FileError) :
    b.Binds (bindType clause) errs fun type errs' =>
      errs' = #[] → errs = #[] ∧ b.catalog.Denotes type := by
  refine ((reporting_bindType clause).binds b errs).mono fun type errs' h hclean => ?_
  subst hclean
  obtain rfl := eq_empty_of_appended h.2 rfl
  exact ⟨rfl, b, clause, rfl, h.1⟩

/-- Parameters take one variable each. -/
lemma bindParams_walks (params : List Syntax.Param) (b : Binder) (loops : List LoopLabels)
    (p : Progress) :
    b.Walks loops (params.mapM bindParam) p fun vars p' => p'.scopes = p.scopes ∧
      p.ids.Taken p'.ids [] (vars.map (·.id)) ∧ (∀ v ∈ vars, v.kind = .parameter) ∧
      (p'.errors = #[] → p.errors = #[] ∧ ∀ v ∈ vars, b.catalog.Denotes v.type) := by
  induction params generalizing p with
  | nil =>
    rw [mapM_nil]
    exact .pure ⟨rfl, p.ids.taken_skip 0 0, forall_mem_nil _,
      fun hclean => ⟨hclean, forall_mem_nil _⟩⟩
  | cons param params ih =>
    rw [mapM_cons, bindParam, bind_assoc]
    obtain ⟨type, errs, hrun, htype⟩ := bindType_binds param.type (b.along loops p) p.errors
    refine .bind_run (p.reported errs) hrun ?_
    refine .bind_run ((p.taking 1 0).reported errs) rfl ?_
    refine (ih _).bind fun vars p' h => .pure ?_
    obtain ⟨hscopes, htaken, hkind, hclean⟩ := h
    refine ⟨hscopes, p.ids.taken_var.trans htaken, forall_mem_cons.mpr ⟨rfl, hkind⟩,
      fun hempty => ?_⟩
    obtain ⟨herrs, hvars⟩ := hclean hempty
    obtain ⟨hbefore, hdenotes⟩ := htype herrs
    exact ⟨hbefore, forall_mem_cons.mpr ⟨hdenotes, hvars⟩⟩

lemma bindReturnType_binds (clause : Option Syntax.TypeClause) (b : Binder)
    (errs : Array FileError) :
    b.Binds (bindReturnType clause) errs fun type errs' =>
      errs' = #[] → errs = #[] ∧ (type = .void ∨ b.catalog.Denotes type) := by
  cases clause with
  | none => exact .pure fun hclean => ⟨hclean, .inl rfl⟩
  | some clause =>
    exact (bindType_binds clause b errs).mono fun _ _ h hclean => (h hclean).imp_right .inr

def signatureOf (id : FunctionId) (file : SourceFile) (decl : Syntax.FunctionDecl)
    (params : List Var) (returnType : Ty) : FunctionSymbol :=
  ⟨id, decl.name.text, file.program.package, params, returnType, none, .interpreted⟩

/-- The counters after the id of a function is taken. -/
def Ids.skipFunction (ids : Ids) : Ids :=
  { ids with nextFunction := ids.nextFunction + 1 }

lemma freshFunction_run :
    freshFunction.run b = (⟨b.ids.nextFunction⟩, { b with ids := b.ids.skipFunction }) := rfl

lemma Ids.taken_function (ids : Ids) :
    ids.Taken ids.skipFunction [] [] [⟨ids.nextFunction⟩] where
  reach := ⟨Nat.le_refl _, Nat.le_succ _, Nat.le_refl _⟩
  labels _ := Nat.zero_le _
  vars _ := Nat.zero_le _
  functions id := by
    have same : (⟨ids.nextFunction⟩ : FunctionId) = id ↔ ids.nextFunction = id.index := by
      cases id
      simp
    show _ ≤ within ids.nextFunction (ids.nextFunction + 1) id.index
    rw [count_singleton]
    simp only [beq_iff_eq, same, within]
    split_ifs <;> omega

/-- What becomes of a signature, once its parameters and the type that it returns are bound. -/
lemma bindSignature_run {decl : Syntax.FunctionDecl} {params : List Var} {returnType : Ty}
    {b b₁ b₂ : Build} (hparams : (inFile file (decl.params.mapM bindParam)).run b = (params, b₁))
    (hreturn : (inFile file (bindReturnType decl.returnType)).run b₁ = (returnType, b₂)) :
    (bindSignature file decl).run b =
      let f := signatureOf ⟨b₂.ids.nextFunction⟩ file decl params returnType
      match b₂.catalog.registerFunction? file.program.package f with
      | some catalog =>
        (some ⟨file, decl, f⟩, ⟨catalog, b₂.ids.skipFunction, b₂.program, b₂.errors⟩)
      | none =>
        (none, ⟨b₂.catalog, b₂.ids.skipFunction, b₂.program, b₂.errors.push ⟨some file.index,
          .duplicateFunction decl.name.text file.program.package, decl.name.span⟩⟩) := by
  rw [bindSignature, build_run_bind, hparams, build_run_bind, hreturn, build_run_bind,
    build_run_bind, register_run, freshFunction_run]
  dsimp only [signatureOf]
  cases b₂.catalog.registerFunction? file.program.package _ with
  | some | none => rfl

/-! ### Variables of packages -/

/-- The variable of a package that is declared next. -/
def Ids.globalVar (ids : Ids) (name : String) (type : Ty) : Var :=
  ⟨⟨ids.nextVar⟩, name, type, .global⟩

lemma bindGlobal_run {decl : Syntax.VarDecl} {type : Ty} {initializer : Option Expr} {b b₁ : Build}
    (hdecl : (inFile file (bindVarDecl decl)).run b = ((type, initializer), b₁)) :
    ((bindGlobal file (.global decl)).run b).2 =
      let v := b₁.ids.globalVar decl.name.text type
      match b₁.catalog.registerGlobal? file.program.package v with
      | some catalog => ⟨catalog, b₁.ids.skip 1 0, b₁.program.addGlobal file.program.package
          (some file.index) (.declare v initializer), b₁.errors⟩
      | none => ⟨b₁.catalog, b₁.ids.skip 1 0, b₁.program, b₁.errors.push ⟨some file.index,
          .duplicateGlobal decl.name.text file.program.package, decl.name.span⟩⟩ := by
  have hfresh : (inFile file (freshVar decl.name.text type .global)).run b₁ =
      (b₁.ids.globalVar decl.name.text type, { b₁ with ids := b₁.ids.skip 1 0 }) := rfl
  rw [bindGlobal, build_run_bind, hdecl, build_run_bind, hfresh, build_run_bind, register_run]
  dsimp only
  cases b₁.catalog.registerGlobal? file.program.package _ with
  | some | none => rfl
lemma within_bindVarDecl {b : Build} {decl : Syntax.VarDecl} {bound : Ty × Option Expr}
    {b' : Binder} (h : (bindVarDecl decl).run (b.entered file) = (bound, b')) :
    ∀ e ∈ bound.2, e.Within (b.catalog.globalsOf file.program.package) := by
  intro e he
  refine (within_of_elaborates (elaborates_bindVarDecl h) e he).mono fun v hv => ?_
  rwa [Build.entered, Build.enter, Scopes.visible, Scopes.ofGlobals, flatten_cons,
    flatten_nil, append_nil] at hv

lemma flatMap_addToGroups (mark : Stmt → List α) (package : String) (file : Option Nat)
    (stmt : Stmt) (groups : List GlobalGroup) :
    (Program.addToGroups package file stmt groups).flatMap (·.stmts.flatMap mark) =
      groups.flatMap (·.stmts.flatMap mark) ++ mark stmt := by
  fun_induction Program.addToGroups package file stmt groups with
  | case1 => simp
  | case2 last h => simp
  | case3 last h => simp
  | case4 group groups h ih => rw [flatMap_cons, ih, flatMap_cons, append_assoc]

lemma globalVars_addGlobal (p : Program) (package : String) (file : Option Nat) (v : Var)
    (initializer : Option Expr) :
    (p.addGlobal package file (.declare v initializer)).globalVars = p.globalVars ++ [v] :=
  flatMap_addToGroups Stmt.vars package file (.declare v initializer) p.globals

lemma vars_addGlobal (p : Program) (package : String) (file : Option Nat) (v : Var)
    (initializer : Option Expr) :
    (p.addGlobal package file (.declare v initializer)).vars.Perm (v :: p.vars) := by
  rw [Program.vars, globalVars_addGlobal, append_assoc]
  exact perm_middle

/-- Every declaration of the program is an old one or the one that was added. -/
lemma mem_addGlobal {file : Option Nat} {stmt : Stmt} {group : GlobalGroup}
    (hgroup : group ∈ (p.addGlobal package file stmt).globals) {decl : Stmt}
    (hdecl : decl ∈ group.stmts) : decl = stmt ∨ ∃ group ∈ p.globals, decl ∈ group.stmts := by
  have hmem : decl ∈ (p.addGlobal package file stmt).globals.flatMap
      (·.stmts.flatMap fun stmt => [stmt]) :=
    mem_flatMap.mpr ⟨group, hgroup, mem_flatMap.mpr ⟨decl, hdecl, mem_singleton_self _⟩⟩
  rw [Program.addGlobal, flatMap_addToGroups] at hmem
  rcases mem_append.mp hmem with hmem | hmem
  · obtain ⟨group, hgroup, hmem⟩ := mem_flatMap.mp hmem
    obtain ⟨stmt, hstmt, hmem⟩ := mem_flatMap.mp hmem
    obtain rfl := mem_singleton.mp hmem
    exact .inr ⟨group, hgroup, hstmt⟩
  · exact .inl (mem_singleton.mp hmem)

/-! ### Bodies -/

namespace Scopes

variable {s : Scopes}

/-- Declares variables in the innermost scope, each one unless its name is taken there. -/
def declareAll (s : Scopes) (vars : List Var) : Scopes :=
  vars.foldl (fun s v => (s.declare? v).getD s) s

/-- Some of the variables come into the innermost scope. -/
lemma declareAll_eq_extend (s : Scopes) (vars : List Var) :
    ∃ added ⊆ vars, s.declareAll vars = s.extend added := by
  induction vars generalizing s with
  | nil => exact ⟨[], List.Subset.refl _, s.extend_nil.symm⟩
  | cons v vars ih =>
    obtain ⟨added, hsub, hadded⟩ := ih ((s.declare? v).getD s)
    rw [declareAll, foldl_cons]
    cases hdeclare : s.declare? v with
    | none =>
      rw [hdeclare] at hadded
      exact ⟨added, List.Subset.trans hsub (subset_cons_self _ _), hadded⟩
    | some =>
      rw [hdeclare, Option.getD_some, eq_extend_of_declare? hdeclare, extend_extend] at hadded
      refine ⟨v :: added, cons_subset_cons v hsub, ?_⟩
      rw [Option.getD_some, eq_extend_of_declare? hdeclare]
      exact hadded

end Scopes

lemma declareParam_walks (v : Var) (param : Syntax.Param) (b : Binder) (loops : List LoopLabels)
    (p : Progress) :
    b.Walks loops (declareParam v param) p fun _ p' => ∃ errs, p.errors.toList <+: errs.toList ∧
      p' = (p.within ((p.scopes.declare? v).getD p.scopes)).reported errs := by
  unfold declareParam
  cases hdeclare : p.scopes.declare? v with
  | some =>
    exact .bind_run _ (declare_run_some hdeclare) (.pure ⟨p.errors, prefix_rfl, rfl⟩)
  | none =>
    refine .bind_run _ (declare_run_none hdeclare) ?_
    exact ⟨(), _, rfl, _, prefix_push _ _, rfl⟩

/-- The parameters are declared, those with the name of another one excepted. -/
lemma declareParams_walks (params : List (Var × Syntax.Param)) (b : Binder)
    (loops : List LoopLabels) (p : Progress) :
    b.Walks loops (params.forM fun (v, param) => declareParam v param) p fun _ p' =>
      ∃ errs, p.errors.toList <+: errs.toList ∧
        p' = (p.within (p.scopes.declareAll (params.map (·.1)))).reported errs := by
  induction params generalizing p with
  | nil => exact .pure ⟨p.errors, prefix_rfl, rfl⟩
  | cons param params ih =>
    refine (declareParam_walks param.1 param.2 b loops p).bind fun _ p₁ h => ?_
    obtain ⟨errs, hprefix, rfl⟩ := h
    refine (ih _).mono fun _ p' h => ?_
    obtain ⟨errs', hprefix', rfl⟩ := h
    exact ⟨errs', hprefix.trans hprefix', rfl⟩

/-- Where the body of a function is bound. -/
def Build.inBody (b : Build) (f : Pending) : Binder :=
  b.enter f.file f.symbol.package (some f.symbol)

/-- The body of a function that is bound next, with the binder after it. -/
def Build.bodyOf (b : Build) (f : Pending) : Stmt × Binder :=
  (bindBody f.symbol f.decl).run (b.inBody f)

/-- The scopes of a body: the parameters inside of the variables of the package. -/
def Build.bodyScopes (b : Build) (f : Pending) : Scopes :=
  (Scopes.ofGlobals (b.catalog.globalsOf f.symbol.package)).push.declareAll
    ((f.symbol.params.zip f.decl.params).map (·.1))

lemma bodyScopes_eq :
    ∃ vars ⊆ f.symbol.params,
      b.bodyScopes f = ⟨[vars, b.catalog.globalsOf f.symbol.package]⟩ := by
  obtain ⟨vars, hsub, hvars⟩ := Scopes.declareAll_eq_extend
    (Scopes.ofGlobals (b.catalog.globalsOf f.symbol.package)).push
    ((f.symbol.params.zip f.decl.params).map (·.1))
  refine ⟨vars, fun v hv => ?_, hvars⟩
  obtain ⟨⟨w, param⟩, hmem, rfl⟩ := mem_map.mp (hsub hv)
  exact (of_mem_zip hmem).1

/-- A body is bound in a scope of its parameters, which is left again. -/
lemma bindBody_walks (f : FunctionSymbol) (decl : Syntax.FunctionDecl) (b : Binder)
    (loops : List LoopLabels) (p : Progress) (h : ∀ errs, p.errors.toList <+: errs.toList → b.Walks
      loops (bindStmt decl.body) ⟨p.ids, p.scopes.push.declareAll ((f.params.zip decl.params).map
      (·.1)), errs⟩ R) :
    b.Walks loops (bindBody f decl) p fun stmt p' => ∃ p₁, p' = p₁.within p₁.scopes.pop ∧
      R stmt p₁ := by
  unfold bindBody
  refine .bind_run (p.within p.scopes.push) rfl ?_
  refine (declareParams_walks _ b loops _).bind fun _ p₁ hparams => ?_
  obtain ⟨errs, hprefix, rfl⟩ := hparams
  refine (h errs hprefix).bind fun stmt p₁ hstmt => ?_
  exact .bind_run _ rfl (.pure ⟨p₁, rfl, hstmt⟩)

/-- What holds of its statement when it is bound in the scopes of the body, outside of all loops,
holds of the body of a function. -/
lemma bodyOf_of_walks (h : ∀ errs, b.errors.toList <+: errs.toList → (b.inBody f).Walks [] (bindStmt
      f.decl.body) ⟨b.ids, b.bodyScopes f, errs⟩ R) :
    ∃ p, (b.bodyOf f).2 = (b.inBody f).along [] (p.within p.scopes.pop) ∧ R (b.bodyOf f).1 p := by
  obtain ⟨body, _, hrun, p, rfl, hR⟩ := bindBody_walks f.symbol f.decl (b.inBody f) []
    (b.inBody f).progress h
  have hbody : b.bodyOf f = (body, (b.inBody f).along [] (p.within p.scopes.pop)) := hrun
  exact ⟨p, congrArg Prod.snd hbody, congrArg Prod.fst hbody ▸ hR⟩

lemma bindFunction_run (b : Build) :
    ((bindFunction f).run b).2 = ⟨b.catalog, (b.bodyOf f).2.ids,
      b.program.insert ⟨f.symbol, some f.file.index, .structured (b.bodyOf f).1⟩,
      (b.bodyOf f).2.errors⟩ := by
  obtain ⟨p, hp, -⟩ := bodyOf_of_walks (R := fun _ _ => True) b f fun errs _ =>
    (taken_bindStmt _ _ _ _).mono fun _ _ _ => trivial
  have hcatalog : (b.bodyOf f).2.catalog = b.catalog := by rw [hp]; rfl
  have hprogram : (b.bodyOf f).2.program = b.program := by rw [hp]; rfl
  show Build.mk (b.bodyOf f).2.catalog (b.bodyOf f).2.ids ((b.bodyOf f).2.program.insert
    ⟨f.symbol, some f.file.index, .structured (b.bodyOf f).1⟩) (b.bodyOf f).2.errors = _
  rw [hcatalog, hprogram]

lemma taken_bodyOf :
    b.ids.Taken (b.bodyOf f).2.ids (b.bodyOf f).1.labels (b.bodyOf f).1.varIds := by
  obtain ⟨p, hp, htaken⟩ := bodyOf_of_walks
    (R := fun stmt p => b.ids.Taken p.ids stmt.labels stmt.varIds) b f
    fun errs _ => taken_bindStmt _ _ _ _
  rw [hp]
  exact htaken

lemma elaborates_bodyOf : ElaboratesStmt (b.bodyScopes f) none f.decl.body (b.bodyOf f).1 := by
  obtain ⟨vars, -, hscopes⟩ := bodyScopes_eq b f
  have hchain : (b.bodyScopes f).chain ≠ [] := hscopes ▸ cons_ne_nil _ _
  obtain ⟨-, -, hbody⟩ := bodyOf_of_walks
    (R := fun stmt _ => ElaboratesStmt (b.bodyScopes f) none f.decl.body stmt) b f fun errs _ =>
    (elaborates_bindStmt _ _ _ ⟨b.ids, b.bodyScopes f, errs⟩ hchain).mono fun _ _ h => h.2
  exact hbody

/-- The body of a function adds errors after those there are. -/
lemma prefix_bodyOf : b.errors.toList <+: (b.bodyOf f).2.errors.toList := by
  obtain ⟨p, hp, hprefix⟩ := bodyOf_of_walks
    (R := fun _ p => b.errors.toList <+: p.errors.toList) b f fun errs herrs =>
    (prefix_bindStmt _ _ _ _).mono fun _ _ h => herrs.trans h
  rw [hp]
  exact hprefix

lemma ownBound_bodyOf : ∀ part ∈ (b.bodyOf f).1.parts, OwnBound b.catalog part := by
  obtain ⟨-, -, hparts⟩ := bodyOf_of_walks
    (R := fun stmt _ => ∀ part ∈ stmt.parts, OwnBound b.catalog part) b f
    fun errs _ => ownBound_bindStmt _ _ _ _
  exact hparts

/-- The variables that a body introduces live in the frame of a call. -/
lemma locals_bodyOf : ∀ v ∈ (b.bodyOf f).1.vars, v.isGlobal = false := by
  intro v hv
  obtain ⟨part, hpart, hv⟩ := mem_flatMap.mp hv
  exact (ownBound_bodyOf b f part hpart).locals v hv

lemma scoped_bodyOf :
    (b.bodyOf f).1.Scoped (f.symbol.params ++ b.catalog.globalsOf f.symbol.package) := by
  obtain ⟨vars, hsub, hscopes⟩ := bodyScopes_eq b f
  refine (elaborates_bodyOf b f).scoped.mono fun v hv => ?_
  simp only [hscopes, Scopes.visible, flatten_cons, flatten_nil, append_nil,
    mem_append] at hv ⊢
  exact hv.imp_left fun hv => hsub hv

/-! ### Whole programs -/

lemma insert_of_function?_eq_none {f : Function} (h : p.function? f.symbol.id = none) :
    p.insert f = ⟨p.functions ++ [f], p.globals⟩ := by
  rw [Program.insert, if_neg]
  rw [h]
  exact Bool.false_ne_true

/-- Every function of the program is an old one or the one that was added. -/
lemma mem_insert {f g : Function} (h : g ∈ (p.insert f).functions) :
    g = f ∨ g ∈ p.functions := by
  rw [Program.insert] at h
  split at h
  · obtain ⟨g', hg', rfl⟩ := mem_map.mp h
    split
    · exact .inl rfl
    · exact .inr hg'
  · exact (mem_append.mp h).symm.imp_left mem_singleton.mp

lemma vars_append (fs : List Function) (f : Function) (globals : List GlobalGroup) :
    (Program.mk (fs ++ [f]) globals).vars = (Program.mk fs globals).vars ++ f.vars := by
  rw [Program.vars, flatMap_append, flatMap_singleton, ← append_assoc]
  rfl

/-! ### The induction -/

/-- One step of declaring what the files hold: what is built, with the functions whose bodies are
pending, before it and after it. -/
inductive Build.Declares (pending : List Pending) (b : Build) : List Pending → Build → Prop
  /-- Nothing is declared, and if this is an error it is reported. -/
  | pass {ids errors} (hreach : b.ids.Reach ids) (hclean : errors = #[] → b.errors = #[]) :
    Declares pending b pending ⟨b.catalog, ids, b.program, errors⟩
  | package (name : String) :
    Declares pending b pending { b with catalog := b.catalog.ensurePackage name }
  /-- Only a package that is there is loaded. -/
  | load (name : String) {loaded} (included : Bool) (hloaded : b.catalog.Has loaded) :
    Declares pending b pending { b with catalog := b.catalog.addLoad name loaded included }
  | signature {file decl params ids errors returnType catalog}
    (htaken : b.ids.Taken ids [] (params.map (·.id))) (hkind : ∀ v ∈ params, v.kind = .parameter)
    (hclean : errors = #[] → b.errors = #[] ∧ (∀ v ∈ params, b.catalog.Denotes v.type) ∧
      (returnType = .void ∨ b.catalog.Denotes returnType))
    (hregister : b.catalog.registerFunction? file.program.package
      (signatureOf ⟨ids.nextFunction⟩ file decl params returnType) = some catalog) :
    Declares pending b
      (pending ++ [⟨file, decl, signatureOf ⟨ids.nextFunction⟩ file decl params returnType⟩])
      ⟨catalog, ids.skipFunction, b.program, errors⟩
  /-- The package of the file is there. -/
  | global {file decl type initializer errors catalog}
    (hpresent : b.catalog.Has file.program.package)
    (hdecl : (bindVarDecl decl).run (b.entered file) =
      ((type, initializer), (b.entered file).reported errors))
    (hregister : b.catalog.registerGlobal? file.program.package
      (b.ids.globalVar decl.name.text type) = some catalog) :
    Declares pending b pending ⟨catalog, b.ids.skip 1 0,
      b.program.addGlobal file.program.package (some file.index)
        (.declare (b.ids.globalVar decl.name.text type) initializer), errors⟩

namespace Build.Declares

variable {pending pending' : List Pending} {b b' : Build}

lemma functions_eq (h : Declares pending b pending' b') :
    b'.program.functions = b.program.functions := by
  cases h <;> rfl

lemma refl (pending : List Pending) (b : Build) : Declares pending b pending b :=
  .pass (b.ids.reach_skip 0 0) id

/-- A step leaves all packages there. -/
lemma has (h : Declares pending b pending' b') {name : String} (hname : b.catalog.Has name) :
    b'.catalog.Has name := by
  cases h with
  | pass => exact hname
  | package => exact Catalog.has_ensurePackage.mpr (.inl hname)
  | load name _ =>
    refine (Catalog.has_update (c := b.catalog.ensurePackage name) ?_).mpr ?_
    · exact fun _ _ _ => rfl
    · exact Catalog.has_ensurePackage.mpr (.inl hname)
  | signature _ _ _ hregister =>
    exact (Catalog.has_change? (fun _ _ => Package.kept_of_registerFunction?) hregister).mpr
      (.inl hname)
  | global _ _ hregister =>
    exact (Catalog.has_change? (fun _ _ => Package.kept_of_registerGlobal?) hregister).mpr
      (.inl hname)

/-- The packages of the functions whose bodies are pending are there. -/
lemma has_pending (h : Declares pending b pending' b')
    (hpending : ∀ f ∈ pending, b.catalog.Has f.symbol.package) :
    ∀ f ∈ pending', b'.catalog.Has f.symbol.package := by
  have hold : ∀ f ∈ pending, b'.catalog.Has f.symbol.package := fun f hf => h.has (hpending f hf)
  cases h with
  | signature _ _ _ hregister =>
    refine forall_mem_append.mpr ⟨hold, forall_mem_singleton.mpr ?_⟩
    exact (Catalog.has_change? (fun _ _ => Package.kept_of_registerFunction?) hregister).mpr
      (.inr rfl)
  | _ => exact hold

/-- **Every package that is loaded is there**: a step keeps this, since a load of another package is
refused. -/
theorem linked (h : Declares pending b pending' b') (hlinked : b.catalog.Linked) :
    b'.catalog.Linked := by
  cases h with
  | pass => exact hlinked
  | package name => exact hlinked.ensurePackage name
  | load name included hloaded => exact hlinked.addLoad hloaded name included
  | signature _ _ _ hregister =>
    exact hlinked.change? (fun _ _ => Package.kept_of_registerFunction?) hregister
  | global _ _ hregister =>
    exact hlinked.change? (fun _ _ => Package.kept_of_registerGlobal?) hregister

lemma bindLoad (pending : List Pending) (file : SourceFile) (member : Syntax.Member) (b : Build) :
    Declares pending b pending ((bindLoad file member).run b).2 := by
  cases member with
  | load =>
    rw [Parcel.bindLoad, build_run_bind]
    dsimp only
    split
    next h => exact .load _ _ h
    next => exact .pass (b.ids.reach_skip 0 0) fun hclean => absurd hclean Array.push_ne_empty
  | _ => exact refl pending b

lemma bindSignature (pending : List Pending) (file : SourceFile) (decl : Syntax.FunctionDecl)
    (b : Build) : Declares pending b (pending ++ ((bindSignature file decl).run b).1.toList)
      ((bindSignature file decl).run b).2 := by
  obtain ⟨params, p, hparams, -, htaken, hkind, hclean⟩ := bindParams_walks decl.params
    (b.entered file) [] ⟨b.ids, (b.entered file).scopes, b.errors⟩
  obtain ⟨returnType, errors, hreturn, hclean'⟩ := bindReturnType_binds decl.returnType
    (Build.entered ⟨b.catalog, p.ids, b.program, p.errors⟩ file) p.errors
  have hfirst : (inFile file (decl.params.mapM bindParam)).run b =
      (params, ⟨b.catalog, p.ids, b.program, p.errors⟩) :=
    inFile_run hparams
  have hsecond : (inFile file (bindReturnType decl.returnType)).run
      ⟨b.catalog, p.ids, b.program, p.errors⟩ =
        (returnType, ⟨b.catalog, p.ids, b.program, errors⟩) := inFile_run hreturn
  rw [bindSignature_run hfirst hsecond]
  dsimp only
  cases hregister : b.catalog.registerFunction? file.program.package
      (signatureOf ⟨p.ids.nextFunction⟩ file decl params returnType) with
  | some catalog =>
    refine .signature htaken hkind (fun hempty => ?_) hregister
    obtain ⟨hempty₁, htype⟩ := hclean' hempty
    obtain ⟨hbefore, hvars⟩ := hclean hempty₁
    exact ⟨hbefore, hvars, htype⟩
  | none =>
    have hpass : Declares pending b pending ⟨b.catalog, p.ids.skipFunction, b.program, errors.push
        ⟨some file.index, .duplicateFunction decl.name.text file.program.package,
          decl.name.span⟩⟩ :=
      .pass (htaken.reach.trans p.ids.taken_function.reach)
        fun hclean => absurd hclean Array.push_ne_empty
    exact (append_nil pending).symm ▸ hpass

/-- A declaration of a variable of a package becomes a variable that is registered and declared, or
an error. -/
lemma bindGlobal (pending : List Pending) (file : SourceFile) (member : Syntax.Member) (b : Build)
    (hpresent : b.catalog.Has file.program.package) :
    Declares pending b pending ((bindGlobal file member).run b).2 := by
  cases member with
  | global decl =>
    obtain ⟨⟨type, initializer⟩, errors, hdecl, -⟩ :=
      (reporting_bindVarDecl decl).run (b.entered file) b.errors
    have hfirst : (inFile file (bindVarDecl decl)).run b =
        ((type, initializer), { b with errors }) := inFile_run hdecl
    rw [bindGlobal_run hfirst]
    dsimp only
    cases hregister : b.catalog.registerGlobal? file.program.package
        (b.ids.globalVar decl.name.text type) with
    | some catalog => exact .global hpresent hdecl hregister
    | none => exact .pass (b.ids.reach_skip 1 0) fun hclean => absurd hclean Array.push_ne_empty
  | _ => exact refl pending b

end Build.Declares

/-- The packages of files are there once they are bound. -/
lemma has_bindPackages (files : List SourceFile) (b : Build) :
    ∀ file ∈ files, ((files.forM bindPackage).run b).2.catalog.Has file.program.package := by
  induction files generalizing b with
  | nil => exact forall_mem_nil _
  | cons file files ih =>
    refine forall_mem_cons.mpr ⟨?_, ih _⟩
    refine forM_inv (f := bindPackage) (I := fun b => b.catalog.Has file.program.package) files
      (fun _ _ _ h => Catalog.has_ensurePackage.mpr (.inl h)) _ ?_
    exact Catalog.has_ensurePackage.mpr (.inr rfl)

/-- **Induction along the binding of files.** A property of the functions whose bodies are pending
and of what is built holds of the whole if every step keeps it. Until all variables of packages are
declared, no body is bound; where a body is bound, its package is there. -/
theorem bindFiles_induct {I : List Pending → Build → Prop} (catalog : Catalog) (ids : Ids)
    (start : I [] ⟨catalog, ids, .empty, #[]⟩)
    (declares : ∀ pending b pending' b', b.program.functions = [] →
      Build.Declares pending b pending' b' → I pending b → I pending' b')
    (function : ∀ pending b f, b.catalog.Has f.symbol.package → I (f :: pending) b →
      I pending ((bindFunction f).run b).2)
    (files : List Syntax.Program) : I [] (bindFiles catalog ids files) := by
  -- declaring keeps the property and the packages, and adds no function
  let J (present : List SourceFile) (pending : List Pending) (b : Build) : Prop :=
    (b.program.functions = [] ∧ (∀ file ∈ present, b.catalog.Has file.program.package)) ∧
      (∀ f ∈ pending, b.catalog.Has f.symbol.package) ∧ I pending b
  have step {present : List SourceFile} {pending pending' : List Pending} {b b' : Build}
      (h : Build.Declares pending b pending' b') (hb : J present pending b) :
      J present pending' b' :=
    ⟨⟨h.functions_eq.trans hb.1.1, fun file hfile => h.has (hb.1.2 file hfile)⟩,
      h.has_pending hb.2.1, declares _ _ _ _ hb.1.1 h hb.2.2⟩
  unfold bindFiles buildFiles
  have hpackages := forM_inv (f := bindPackage) (I := J [] []) (indexed files)
    (fun file _ b => step (.package file.program.package)) ⟨catalog, ids, .empty, #[]⟩
    ⟨⟨rfl, forall_mem_nil _⟩, forall_mem_nil _, start⟩
  have hpresent := has_bindPackages (indexed files) ⟨catalog, ids, .empty, #[]⟩
  have hloads := forM_inv (f := fun file : SourceFile => file.program.members.forM (bindLoad file))
    (I := J (indexed files) []) (indexed files) (fun file _ => forM_inv file.program.members
      fun member _ b => step (.bindLoad [] file member b)) _ ⟨⟨hpackages.1.1, hpresent⟩, hpackages.2⟩
  -- the signatures of one file, then those of all files
  have hfile (file : SourceFile) (pending : List Pending) (b : Build)
      (hb : J (indexed files) pending b) : J (indexed files)
        (pending ++ ((bindSignatures file).run b).1) ((bindSignatures file).run b).2 := by
    refine mapM_inv (f := bindSignature file)
      (I := fun done b => J (indexed files) (pending ++ done.filterMap id) b)
      file.program.functions (fun decl _ done b h => ?_) [] b ?_
    · have hstep := step (.bindSignature _ file decl b) h
      rw [filterMap_append, ← append_assoc]
      cases hresult : ((bindSignature file decl).run b).1 with
      | none | some f =>
        rw [hresult] at hstep
        exact hstep
    · rw [filterMap_nil, append_nil]
      exact hb
  have hsignatures := mapM_inv (f := bindSignatures)
    (I := fun done b => J (indexed files) done.flatten b) (indexed files)
    (fun file _ done b hb => by
      rw [flatten_append, flatten_singleton]
      exact hfile file _ b hb) [] _ hloads
  have hglobals := forM_inv
    (f := fun file : SourceFile => file.program.members.forM (bindGlobal file))
    (I := J (indexed files) _) (indexed files) (fun file hmem =>
      forM_inv file.program.members fun member _ b hb =>
        step (.bindGlobal _ file member b (hb.1.2 file hmem)) hb) _ hsignatures
  have hbodies (pending : List Pending) (b : Build)
      (hpending : ∀ f ∈ pending, b.catalog.Has f.symbol.package) (h : I pending b) :
      I [] ((pending.forM bindFunction).run b).2 := by
    induction pending generalizing b with
    | nil => exact h
    | cons f pending ih =>
      rw [forall_mem_cons] at hpending
      refine ih ((bindFunction f).run b).2 ?_ (function pending b f hpending.1 h)
      rw [bindFunction_run]
      exact hpending.2
  exact hbodies _ _ hglobals.2.1 hglobals.2.2

/-! ### The shape -/

/-- What holds while a program is bound on top of a catalog and counters; the bodies of some
functions are still pending. -/
structure Build.Shaped (catalog : Catalog) (ids : Ids) (pending : List Pending) (b : Build) :
    Prop where
  taken : ids.Taken b.ids b.program.placed
    ((b.program.vars ++ pending.flatMap (·.symbol.params)).map (·.id))
    ((b.program.functions.map (·.symbol) ++ pending.map (·.symbol)).map (·.id))
  params : ∀ f ∈ b.program.functions.map (·.symbol) ++ pending.map (·.symbol),
    ∀ v ∈ f.params, v.kind = .parameter
  bodies : ∀ f ∈ b.program.functions, ∃ body, f.body = .structured body ∧
    Structured none body ∧
    body.Scoped (f.symbol.params ++ b.catalog.globalsOf f.symbol.package)
  globals : ∀ v, b.catalog.HasGlobal v → catalog.HasGlobal v ∨ v ∈ b.program.globalVars
  declarations : ∀ group ∈ b.program.globals, ∀ stmt ∈ group.stmts, ∃ v initializer,
    stmt = .declare v initializer ∧ v.isGlobal = true ∧ ∀ e ∈ initializer, ∀ a ∈ e.accesses,
      ∀ w ∈ a.var?, catalog.HasGlobal w ∨ w ∈ b.program.globalVars

lemma forall_mem_of_eq_nil {l : List α} (h : l = []) (P : α → Prop) : ∀ a ∈ l, P a := by
  rw [h]
  exact forall_mem_nil P

namespace Build.Shaped

variable {catalog : Catalog} {ids : Ids} {pending : List Pending} {b : Build}

lemma start (catalog : Catalog) (ids : Ids) : Shaped catalog ids [] ⟨catalog, ids, .empty, #[]⟩ where
  taken := ids.taken_skip 0 0
  params _ hf := nomatch hf
  bodies _ hf := nomatch hf
  globals _ hv := .inl hv
  declarations _ hgroup := nomatch hgroup

/-- While no body is bound, the catalog may change if no variable comes with it. -/
lemma withCatalog (h : Shaped catalog ids pending b) (hnone : b.program.functions = [])
    {catalog' : Catalog} (hglobals : ∀ v, catalog'.HasGlobal v → b.catalog.HasGlobal v) :
    Shaped catalog ids pending { b with catalog := catalog' } where
  taken := h.taken
  params := h.params
  bodies := forall_mem_of_eq_nil hnone _
  globals v hv := h.globals v (hglobals v hv)
  declarations := h.declarations

lemma declares (h : Shaped catalog ids pending b) (hnone : b.program.functions = [])
    {pending' : List Pending} {b' : Build} (hstep : Declares pending b pending' b') :
    Shaped catalog ids pending' b' := by
  cases hstep with
  | pass hreach => exact ⟨h.taken.later hreach, h.params, h.bodies, h.globals, h.declarations⟩
  | package name => exact h.withCatalog hnone fun _ hv => (Catalog.hasGlobal_ensurePackage name).mp hv
  | load => exact h.withCatalog hnone fun _ hv =>
      (Catalog.hasGlobal_ensurePackage _).mp ((Catalog.mem_of_update hv).elim id id)
  | @signature _ _ _ ids₁ _ _ _ htaken hkind _ hregister =>
    refine ⟨?_, ?_, forall_mem_of_eq_nil hnone _, ?_, h.declarations⟩
    · have htaken' := (h.taken.trans htaken).trans ids₁.taken_function
      simp only [flatMap_append, flatMap_singleton, map_append, map_singleton,
        append_assoc, append_nil] at htaken' ⊢
      exact htaken'
    · intro f hf
      simp only [map_append, map_singleton, ← append_assoc] at hf
      rcases mem_append.mp hf with hf | hf
      · exact h.params f hf
      · obtain rfl := mem_singleton.mp hf
        exact hkind
    · exact fun v hv => h.globals v (Catalog.hasGlobal_registerFunction? hregister hv)
  | @global file decl type initializer _ _ _ hdecl hregister =>
    refine ⟨?_, h.params, forall_mem_of_eq_nil hnone _, ?_, ?_⟩
    · refine (h.taken.trans b.ids.taken_var).perm (.of_eq (append_nil _)) ?_
        (.of_eq (append_nil _))
      have hperm := (vars_addGlobal b.program file.program.package (some file.index)
        (b.ids.globalVar decl.name.text type) initializer).append_right
        (pending.flatMap fun f => f.symbol.params)
      exact perm_append_comm.trans (hperm.map Var.id).symm
    · intro v hv
      rw [globalVars_addGlobal]
      rcases Catalog.hasGlobal_registerGlobal? hregister hv with hv | rfl
      · exact (h.globals v hv).imp_right (mem_append_left _)
      · exact .inr (mem_append_right _ mem_cons_self)
    · intro group hgroup stmt hstmt
      rw [globalVars_addGlobal]
      rcases mem_addGlobal hgroup hstmt with rfl | ⟨group, hgroup, hstmt⟩
      · refine ⟨_, initializer, rfl, rfl, fun e he a ha w hw => ?_⟩
        have hglobal := Catalog.hasGlobal_of_globalsOf (within_bindVarDecl hdecl e he a ha w hw)
        exact (h.globals w hglobal).imp_right (mem_append_left _)
      · obtain ⟨v, init, rfl, hv, hinit⟩ := h.declarations group hgroup stmt hstmt
        exact ⟨v, init, rfl, hv, fun e he a ha w hw =>
          (hinit e he a ha w hw).imp_right (mem_append_left _)⟩

lemma function?_eq_none {f : Pending} (h : Shaped catalog ids (f :: pending) b) :
    b.program.function? f.symbol.id = none := by
  have hcount := h.taken.functions f.symbol.id
  have hle := Nat.le_trans hcount (within_le_one _ _ _)
  rw [map_append, count_append, map_cons, map_cons, count_cons_self] at hle
  have hzero : ((b.program.functions.map (·.symbol)).map (·.id)).count f.symbol.id = 0 := by omega
  refine find?_eq_none.mpr fun g hg => ?_
  have hne := count_eq_zero.mp hzero
  intro heq
  refine hne (mem_map.mpr ⟨g.symbol, mem_map.mpr ⟨g, hg, rfl⟩, ?_⟩)
  simpa using heq

lemma bindFunction {f : Pending} (h : Shaped catalog ids (f :: pending) b) :
    Shaped catalog ids pending ((bindFunction f).run b).2 := by
  rw [bindFunction_run, insert_of_function?_eq_none h.function?_eq_none]
  refine ⟨?_, ?_, ?_, h.globals, h.declarations⟩
  · refine (h.taken.trans (taken_bodyOf b f)).perm ?_ ?_ ?_
    · simp only [Program.placed, flatMap_append, flatMap_singleton]
      exact .refl _
    · have hperm : (b.program.vars ++ (f.symbol.params ++ pending.flatMap (·.symbol.params)) ++
          (b.bodyOf f).1.vars).Perm (b.program.vars ++ (f.symbol.params ++ (b.bodyOf f).1.vars) ++
          pending.flatMap (·.symbol.params)) := by
        simp only [append_assoc]
        exact (perm_append_comm.append_left _).append_left _
      rw [vars_append, Stmt.varIds, ← map_append]
      exact hperm.map Var.id
    · simp
  · intro g hg
    refine h.params g ?_
    simpa using hg
  · intro g hg
    rcases mem_append.mp hg with hg | hg
    · exact h.bodies g hg
    · obtain rfl := mem_singleton.mp hg
      exact ⟨_, rfl, (elaborates_bodyOf b f).structured, scoped_bodyOf b f⟩

/-- The variables that are declared for packages are shared by all calls. -/
lemma isGlobal_globalVars (h : Shaped catalog ids pending b) {v : Var}
    (hv : v ∈ b.program.globalVars) : v.isGlobal = true := by
  obtain ⟨group, hgroup, hv⟩ := mem_flatMap.mp hv
  obtain ⟨stmt, hstmt, hv⟩ := mem_flatMap.mp hv
  obtain ⟨u, initializer, rfl, hglobal, -⟩ := h.declarations group hgroup stmt hstmt
  obtain rfl : v = u := mem_singleton.mp hv
  exact hglobal

end Build.Shaped

/-- **Every bound program has the shape** that lowering and running rely on. -/
theorem shaped_bindFiles (catalog : Catalog) (ids : Ids) (files : List Syntax.Program) :
    (bindFiles catalog ids files).Shaped catalog ids [] := by
  refine bindFiles_induct (I := fun pending b => b.Shaped catalog ids pending) catalog ids
    (.start catalog ids) ?_ ?_ files
  · exact fun _ _ _ _ hnone hstep h => h.declares hnone hstep
  · exact fun pending b f _ h => h.bindFunction

lemma forall_bodies_bindFiles {P : Body → Prop}
    (hbody : ∀ (b : Build) (pending : Pending), P (.structured (b.bodyOf pending).1))
    (catalog : Catalog) (ids : Ids) (files : List Syntax.Program) :
    ∀ f ∈ (bindFiles catalog ids files).program.functions, P f.body := by
  refine bindFiles_induct (I := fun _ b => ∀ f ∈ b.program.functions, P f.body) catalog ids
    (forall_mem_nil _) ?_ ?_ files
  · exact fun _ b _ b' _ hstep h => hstep.functions_eq.symm ▸ h
  · intro _ b f _ h g hg
    rw [bindFunction_run] at hg
    rcases mem_insert hg with rfl | hg
    · exact hbody b f
    · exact h g hg

/-- The variables of bodies live in the frames of calls. -/
lemma locals_bindFiles (catalog : Catalog) (ids : Ids) (files : List Syntax.Program) :
    ∀ f ∈ (bindFiles catalog ids files).program.functions, ∀ v ∈ f.body.introduced,
      v.isGlobal = false :=
  forall_bodies_bindFiles (P := fun body => ∀ v ∈ body.introduced, v.isGlobal = false)
    locals_bodyOf catalog ids files

end Parcel
