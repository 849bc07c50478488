import Parcel.Proofs.Binding.Phase
import Parcel.Proofs.Text.Suggestion

/-!
# The tasks of binding

After the packages are created, binding goes through four phases: the loads, the signatures and the
variables of every file, and then the bodies of all functions. What each of them adds is said here
as a task, and none of the tasks tells apart more than a phase allows.
-/

namespace Parcel

open List

variable {c c' : Catalog} {package : String} (ρ : Renaming) (file : SourceFile)

/-! ### Loads -/

/-- The name, unless it is among the others. -/
def newName (names : List String) (name : String) : List String :=
  if name ∈ names then [] else [name]

lemma addName_eq (names : List String) (name : String) :
    Package.addName names name = names ++ newName names name := by
  unfold Package.addName newName
  split
  · rw [append_nil]
  · rfl

def loadGrowth (p : Package) (loaded : String) (included : Bool) : Growth :=
  { loads := newName p.loads loaded
    includes := if included then newName p.includes loaded else [] }

lemma addLoad_eq (p : Package) (loaded : String) (included : Bool) :
    p.addLoad loaded included = p.grow (loadGrowth p loaded included) := by
  simp only [Package.addLoad, Package.grow, loadGrowth, addName_eq, FunctionTable.append_nil,
    append_nil, Package.mk.injEq, true_and]
  cases included with
  | true => rfl
  | false => exact (append_nil _).symm

/-- What a load adds: a package that may be named, or an error. Other members add nothing. -/
def loadTask (file : SourceFile) : Syntax.Member → Task
  | .load package included => fun c _ =>
    if (c.package? package.text).isSome then
      { growth := ((c.package? file.program.package).map
          (loadGrowth · package.text included)).getD {} }
    else
      let suggestion := Text.closest package.text c.names
      { errors := [⟨some file.index, .unknownPackage package.text suggestion, package.span⟩] }
  | _ => fun _ _ => {}

lemma matches_loadTask (member : Syntax.Member) :
    Task.Matches false ρ file.program.package (loadTask file member)
      (loadTask (file.rename ρ) member) := by
  intro c c' ids ids' hsees _
  cases member with
  | load package =>
    have hsome : (c'.package? package.text).isSome = (c.package? package.text).isSome :=
      Bool.eq_iff_iff.mpr (Catalog.has_iff.trans (hsees.names.mem_iff.trans Catalog.has_iff.symm))
    obtain ⟨p, hp⟩ := Catalog.package?_of_mem hsees.present
    simp only [loadTask, hsome, SourceFile.program_rename, hsees.own, hp,
      Text.closest_perm _ hsees.names]
    split
    · rfl
    · rfl
  | _ => rfl

/-! ### Signatures -/

/-- What is built before anything is bound. -/
def Catalog.outset (c : Catalog) (ids : Ids) : Build :=
  ⟨c, ids, .empty, #[]⟩

/-- From both binders the computation gives the same and reports the same errors. -/
def BindsAlike {α : Type} (action : BindM α) (b b' : Binder) : Prop :=
  ∃ a new, action.run b = (a, b.adding new) ∧ action.run b' = (a, b'.adding new)

lemma alike_unresolvedType (cause : BindCause) (span : Span) (b b' : Binder) :
    BindsAlike (do BindM.report cause span; return Ty.unresolved) b b' := by
  refine ⟨.unresolved, [⟨cause, span⟩], ?_, ?_⟩
  · rw [bind_run_bind, report_run]
    rfl
  · rw [bind_run_bind, report_run]
    rfl

lemma alike_pure {α : Type} (a : α) (b b' : Binder) : BindsAlike (pure a) b b' := by
  refine ⟨a, [], ?_, ?_⟩
  · rw [b.adding_nil]
    rfl
  · rw [b'.adding_nil]
    rfl

lemma alike_bindNamedType {b b' : Binder} (h : b'.catalog.types = b.catalog.types)
    (name : String) (hasArguments : Bool) (span : Span) :
    BindsAlike (bindNamedType name hasArguments span) b b' := by
  have htype : b'.catalog.type? name = b.catalog.type? name := by
    rw [Catalog.type?, h, Catalog.type?]
  rw [BindsAlike, bindNamedType, get_run_bind, get_run_bind]
  dsimp only
  rw [htype, h]
  cases b.catalog.type? name with
  | none => exact alike_unresolvedType _ _ b b'
  | some type =>
    cases hasArguments with
    | true => exact alike_unresolvedType _ _ b b'
    | false => exact alike_pure type b b'

/-- A clause stands for the same type wherever the same types are known. -/
lemma alike_bindType {b b' : Binder} (h : b'.catalog.types = b.catalog.types)
    (clause : Syntax.TypeClause) : BindsAlike (bindType clause) b b' := by
  fun_induction bindType clause with
  | case1 element span ih =>
    obtain ⟨element, new, hrun, hrun'⟩ := ih
    refine ⟨.array element, new, ?_, ?_⟩
    · rw [bind_run_bind, hrun]
      rfl
    · rw [bind_run_bind, hrun']
      rfl
  | case2 | case4 => exact alike_bindNamedType h _ _ _
  | case3 => exact alike_unresolvedType _ _ _ _

/-- A binder that knows the catalog, in no file. -/
def Catalog.blank (c : Catalog) : Binder :=
  ⟨c.outset {}, none, "", none, ⟨[]⟩, []⟩

/-- The type that a clause stands for, and the errors in it. -/
def typeOf (c : Catalog) (clause : Syntax.TypeClause) : Ty × List BindError :=
  let bound := (bindType clause).run c.blank
  (bound.1, bound.2.errors.toList.map (·.error))

lemma errors_blank (c : Catalog) (new : List BindError) :
    (c.blank.adding new).errors.toList.map (·.error) = new := by
  rw [Binder.toList_errors_adding]
  exact map_map.trans (map_id _)

lemma bindType_run {b : Binder} (h : b.catalog.types = c.types) (clause : Syntax.TypeClause) :
    (bindType clause).run b = ((typeOf c clause).1, b.adding (typeOf c clause).2) := by
  obtain ⟨type, new, hrun, hrun'⟩ := alike_bindType (b := c.blank) h clause
  simp only [typeOf, hrun, hrun', errors_blank]

lemma typeOf_eq (h : c'.types = c.types) : typeOf c' = typeOf c := by
  funext clause
  rw [typeOf, bindType_run (b := c'.blank) h]
  exact Prod.ext rfl (errors_blank c' _)

def returnTypeOf (c : Catalog) : Option Syntax.TypeClause → Ty × List BindError
  | some clause => typeOf c clause
  | none => (.void, [])

lemma returnTypeOf_eq (h : c'.types = c.types) : returnTypeOf c' = returnTypeOf c := by
  funext clause
  cases clause with
  | none => rfl
  | some clause => exact congrFun (typeOf_eq h) clause

/-- The parameters, with ids from `first` on. -/
def paramsFrom (c : Catalog) (first : Nat) (params : List Syntax.Param) : List Var :=
  params.mapIdx fun k param => ⟨⟨first + k⟩, param.name.text, (typeOf c param.type).1, .parameter⟩

def declaredFunction (file : SourceFile) (decl : Syntax.FunctionDecl) (c : Catalog) (ids : Ids) :
    FunctionSymbol :=
  signatureOf ⟨ids.nextFunction⟩ file decl (paramsFrom c ids.nextVar decl.params)
    (returnTypeOf c decl.returnType).1

def signatureErrors (file : SourceFile) (decl : Syntax.FunctionDecl) (c : Catalog) :
    List FileError :=
  (decl.params.flatMap (fun param => (typeOf c param.type).2) ++
    (returnTypeOf c decl.returnType).2).map (FileError.mk (some file.index))

/-- Whether the package has a function of the name. -/
def Catalog.isTaken (c : Catalog) (package name : String) : Bool :=
  (c.package? package).any (·.table.contains name)

/-- What a signature adds: a function whose body is pending, or an error. -/
def signatureTask (file : SourceFile) (decl : Syntax.FunctionDecl) : Task := fun c ids =>
  let symbol := declaredFunction file decl c ids
  if c.isTaken file.program.package decl.name.text then
    { taken := ⟨decl.params.length, 1, 0⟩
      errors := signatureErrors file decl c ++ [⟨some file.index,
        .duplicateFunction decl.name.text file.program.package, decl.name.span⟩] }
  else
    { growth := { functions := [symbol] }
      taken := ⟨decl.params.length, 1, 0⟩
      pending := [⟨file, decl, symbol⟩]
      errors := signatureErrors file decl c }

lemma taken_signatureTask (decl : Syntax.FunctionDecl) (c : Catalog) (ids : Ids) :
    (signatureTask file decl c ids).taken = ⟨decl.params.length, 1, 0⟩ := by
  unfold signatureTask
  split <;> rfl

lemma matches_signatureTask (decl : Syntax.FunctionDecl) :
    Task.Matches false ρ file.program.package (signatureTask file decl)
      (signatureTask (file.rename ρ) decl) := by
  intro c c' ids ids' hsees haligns
  rw [taken_signatureTask] at haligns
  have hparams : paramsFrom c' ids'.nextVar decl.params =
      (paramsFrom c ids.nextVar decl.params).map (·.rename ρ) := by
    refine ext_getElem (by simp [paramsFrom]) fun k hk hk' => ?_
    simp only [paramsFrom, getElem_mapIdx, getElem_map, typeOf_eq hsees.types]
    have hvar := haligns.var k (by simpa [paramsFrom] using hk)
    rw [Var.rename, ← hvar]
  have hsymbol : declaredFunction (file.rename ρ) decl c' ids' =
      (declaredFunction file decl c ids).rename ρ := by
    have hid : ρ.function ids.nextFunction = ids'.nextFunction := haligns.function 0 Nat.one_pos
    rw [declaredFunction, hparams, returnTypeOf_eq hsees.types, ← hid]
    rfl
  have herrors : signatureErrors (file.rename ρ) decl c' =
      (signatureErrors file decl c).map (·.rename ρ) := by
    simp only [signatureErrors, typeOf_eq hsees.types, returnTypeOf_eq hsees.types, map_map]
    rfl
  have hown : c'.isTaken file.program.package decl.name.text =
      c.isTaken file.program.package decl.name.text := by
    rw [Catalog.isTaken, hsees.own, Option.any_map]
    rfl
  simp only [signatureTask, hsymbol, herrors, SourceFile.program_rename, hown]
  split
  · simp only [Effect.rename, map_append]
    rfl
  · rfl

/-! ### Variables of packages -/

/-- Files that cannot be told apart but for the ids are entered at matching places. -/
lemma Catalog.Sees.enter {ρ : Renaming} (h : c.Sees true ρ package c') (ids ids' : Ids)
    (file file' : SourceFile) (function : Option FunctionSymbol) :
    ((c.outset ids).enter file package function).Matches ρ
      ((c'.outset ids').enter file' package (function.map (·.rename ρ))) where
  catalog := h.matches
  package := rfl
  current := h.own
  function := rfl
  scopes := by
    show Scopes.ofGlobals (c'.globalsOf package) = .rename ρ (.ofGlobals (c.globalsOf package))
    rw [globalsOf, globalsOf, h.own]
    cases c.package? package with
    | none | some => rfl
  loops := rfl

/-- What the declaration of a variable adds: a variable and its declaration, or an error. Other
members add nothing. -/
def globalTask (file : SourceFile) : Syntax.Member → Task
  | .global decl => fun c ids =>
    let bound := (bindVarDecl decl).run ((c.outset ids).entered file)
    let v := ids.globalVar decl.name.text bound.1.1
    let errors := bound.2.errors.toList
    if (c.globalsOf file.program.package).any (·.name = decl.name.text) then
      { taken := ⟨1, 0, 0⟩
        errors := errors ++ [⟨some file.index,
          .duplicateGlobal decl.name.text file.program.package, decl.name.span⟩] }
    else
      { growth :=
          { globals := [v], initializers := [⟨some file.index, .declare v bound.1.2⟩] }
        taken := ⟨1, 0, 0⟩
        errors }
  | _ => fun _ _ => {}

lemma matches_globalTask (member : Syntax.Member) :
    Task.Matches true ρ file.program.package (globalTask file member)
      (globalTask (file.rename ρ) member) := by
  intro c c' ids ids' hsees haligns
  cases member with
  | global decl =>
    have htaken : (globalTask file (.global decl) c ids).taken = ⟨1, 0, 0⟩ := by
      simp only [globalTask]
      split <;> rfl
    rw [htaken] at haligns
    have hvar : ρ.var ids.nextVar = ids'.nextVar := haligns.var 0 Nat.one_pos
    obtain ⟨bound, new, hrun, hrun'⟩ := mirrors_bindVarDecl decl _ _
      (hsees.enter ids ids' file (file.rename ρ) none)
    rw [Option.map_none] at hrun'
    have hown : (c'.globalsOf file.program.package).any (·.name = decl.name.text) =
        (c.globalsOf file.program.package).any (·.name = decl.name.text) := by
      rw [Catalog.globalsOf, hsees.own, Catalog.globalsOf]
      cases c.package? file.program.package with
      | none => rfl
      | some => exact any_map
    have hv (type : Ty) : ids'.globalVar decl.name.text type =
        (ids.globalVar decl.name.text type).rename ρ := by
      rw [Ids.globalVar, Ids.globalVar, ← hvar]
      rfl
    simp only [globalTask, SourceFile.program_rename, SourceFile.index_rename, Build.entered, hrun,
      hrun', hown, hv, Binder.toList_errors_adding]
    split
    · simp only [Effect.rename, map_append, map_map]
      rfl
    · simp only [Effect.rename, map_append, map_map]
      rfl
  | _ => rfl

/-! ### Bodies -/

/-- How many ids were taken between two states of the counters. -/
def Ids.since (later earlier : Ids) : Ids :=
  ⟨later.nextVar - earlier.nextVar, later.nextFunction - earlier.nextFunction,
    later.nextLabel - earlier.nextLabel⟩

lemma Ids.since_add (ids n : Ids) : (ids + n).since ids = n := by
  simp only [Ids.since, Ids.nextVar_add, Ids.nextFunction_add, Ids.nextLabel_add,
    Nat.add_sub_cancel_left]

/-- What the body of a function adds. -/
def bodyTask (f : Pending) : Task := fun c ids =>
  let bound := (c.outset ids).bodyOf f
  { taken := bound.2.ids.since ids
    functions := [⟨f.symbol, some f.file.index, .structured bound.1⟩]
    errors := bound.2.errors.toList }

/-- What a body adds, from how it is bound. -/
lemma bodyTask_eq (f : Pending) (ids : Ids) {n : Ids} {scopes : Scopes}
    {loops : List Code.LoopLabels} {new : List BindError} {body : Code.Stmt}
    (h : (c.outset ids).bodyOf f = (body, ((c.outset ids).inBody f).moved n scopes loops new)) :
    bodyTask f c ids =
      { taken := n
        functions := [⟨f.symbol, some f.file.index, .structured body⟩]
        errors := new.map (FileError.mk (some f.file.index)) } := by
  rw [bodyTask, h]
  show Effect.mk {} ((ids + n).since ids) [] _ ([] ++ new.map _) = _
  rw [ids.since_add n]
  rfl

lemma matches_bodyTask (f : Pending) :
    Task.Matches true ρ f.symbol.package (bodyTask f) (bodyTask (f.rename ρ)) := by
  intro c c' ids ids' hsees haligns
  obtain ⟨n, scopes, loops, new, body, -, hrun, hrun'⟩ := parallel_bindBody f.symbol f.decl _ _
    (hsees.enter ids ids' f.file (f.rename ρ).file (some f.symbol))
  have htask := bodyTask_eq f ids hrun
  rw [htask] at haligns ⊢
  rw [bodyTask_eq (f.rename ρ) ids' (hrun' haligns)]
  simp only [Effect.rename, map_map, map_cons, map_nil]
  rfl

lemma nextFunction_bodyTask (f : Pending) (c : Catalog) (ids : Ids) :
    (bodyTask f c ids).taken.nextFunction = 0 := by
  obtain ⟨b', hb⟩ := ((c.outset ids).inBody f).exists_matches
  obtain ⟨n, scopes, loops, new, body, hn, hrun, -⟩ := parallel_bindBody f.symbol f.decl _ b' hb
  rw [bodyTask_eq f ids hrun]
  exact hn

/-! ### The phases -/

/-- What adds no function each time adds none in all. -/
lemma Task.functions_each {τ : Type} {task : τ → Task}
    (h : ∀ a c ids, (task a c ids).growth.functions = []) (l : List τ) (c : Catalog) (ids : Ids) :
    (Task.each package task l c ids).growth.functions = [] := by
  induction l generalizing c ids with
  | nil => rfl
  | cons a l ih => exact append_eq_nil_iff.mpr ⟨h a c ids, ih _ _⟩

lemma functions_globalTask (member : Syntax.Member) (c : Catalog) (ids : Ids) :
    (globalTask file member c ids).growth.functions = [] := by
  cases member with
  | global =>
    simp only [globalTask]
    split <;> rfl
  | _ => rfl

/-- What a phase does with each file: its tasks are those of the items of the file, in order. -/
structure FileTasks (τ : Type) where
  items : Syntax.Program → List τ
  task : SourceFile → τ → Task
  whole : Bool
  matches_task : ∀ ρ file a, Task.Matches whole ρ file.program.package (task file a)
    (task (file.rename ρ) a)
  functions_eq_nil : whole = true → ∀ file a c ids, (task file a c ids).growth.functions = []

/-- The phase that goes through files. -/
def FileTasks.phase {τ : Type} (t : FileTasks τ) : Phase SourceFile where
  package file := file.program.package
  task file := Task.each file.program.package (t.task file) (t.items file.program)
  rename := SourceFile.rename
  whole := t.whole
  package_rename _ _ := rfl
  matches_rename ρ file := matches_each _ fun a _ => t.matches_task ρ file a
  functions_eq_nil hwhole file := Task.functions_each (t.functions_eq_nil hwhole file) _

/-- The loads of every file. -/
def loadTasks : FileTasks Syntax.Member :=
  ⟨(·.members), loadTask, false, matches_loadTask, nofun⟩

/-- The signatures of the functions of every file. -/
def signatureTasks : FileTasks Syntax.FunctionDecl :=
  ⟨(·.functions), signatureTask, false, matches_signatureTask, nofun⟩

/-- The variables of packages of every file. -/
def globalTasks : FileTasks Syntax.Member :=
  ⟨(·.members), globalTask, true, matches_globalTask, fun _ => functions_globalTask⟩

lemma FileTasks.step_phase {τ : Type} (t : FileTasks τ) (d : Draft) (file : SourceFile) :
    t.phase.step d file = (t.items file.program).foldl
      (fun d a => d.apply file.program.package (t.task file a d.catalog d.ids)) d :=
  Draft.apply_each _ _ _ _

/-- The bodies of all functions. -/
def bodyPhase : Phase Pending where
  package f := f.symbol.package
  task := bodyTask
  rename := Pending.rename
  whole := true
  package_rename _ _ := rfl
  matches_rename := matches_bodyTask
  functions_eq_nil _ _ _ _ := rfl

lemma still_bodyPhase : bodyPhase.Still :=
  fun _ _ _ => rfl

end Parcel
