import Parcel.Proofs.Typing.Binding

/-!
# Programs that are bound without errors are typed

The invariant of binding: as long as nothing is reported, the symbols that are registered have
formed types, and the bodies and initial values that are bound are typed. It starts at any catalog
whose types are formed, so it also holds of programs that are bound on top of others.
-/

namespace Parcel

open Code List

/-! ### Catalogs of the same types -/

/-- Two catalogs have the same named types and the same containers. -/
structure Catalog.SameTypes (c c' : Catalog) : Prop where
  types : c'.types = c.types
  containers : c'.containers = c.containers

namespace Catalog

variable {c c' : Catalog} {name : String}

lemma SameTypes.trans {c'' : Catalog} (h : c.SameTypes c') (h' : c'.SameTypes c'') :
    c.SameTypes c'' :=
  ⟨h'.types.trans h.types, h'.containers.trans h.containers⟩

lemma sameTypes_ensurePackage (c : Catalog) (name : String) :
    c.SameTypes (c.ensurePackage name) := by
  unfold ensurePackage
  split
  · exact ⟨rfl, rfl⟩
  · exact ⟨rfl, rfl⟩

lemma sameTypes_update (c : Catalog) (name : String) (f : Package → Package) :
    c.SameTypes ((c.ensurePackage name).update name f) :=
  (sameTypes_ensurePackage c name).trans ⟨rfl, rfl⟩

lemma sameTypes_change? {change : Package → Option Package}
    (h : c.change? name change = some c') : c.SameTypes c' := by
  obtain ⟨p, q, -, -, rfl⟩ := exists_of_change? h
  exact sameTypes_update c name _

end Catalog

lemma Build.Declares.sameTypes {pending pending' : List Pending} {b b' : Build}
    (h : Declares pending b pending' b') : b.catalog.SameTypes b'.catalog := by
  cases h with
  | pass => exact ⟨rfl, rfl⟩
  | package name => exact Catalog.sameTypes_ensurePackage b.catalog name
  | load => exact Catalog.sameTypes_update _ _ _
  | signature _ _ _ hregister | global _ _ hregister => exact Catalog.sameTypes_change? hregister

/-! ### The invariant -/

/-- The functions that a program declares; the bodies of some are pending. -/
def Build.declared (pending : List Pending) (b : Build) : List FunctionSymbol :=
  b.program.functions.map (·.symbol) ++ pending.map (·.symbol)

/-- What the code of a program may refer to that is bound on top of a catalog. -/
def Build.signatures (catalog : Catalog) (pending : List Pending) (b : Build) : Signatures where
  var v := v.type.Formed
  function f := catalog.HasFunction f ∨ f ∈ b.declared pending
  method := catalog.HasMethod

/-- What holds while a program is bound on top of a catalog. Where it speaks of types, it does so as
long as nothing is reported. -/
structure Build.Typed (catalog : Catalog) (pending : List Pending) (b : Build) : Prop where
  linked : b.catalog.Linked
  sameTypes : catalog.SameTypes b.catalog
  functions : ∀ f, b.catalog.HasFunction f → catalog.HasFunction f ∨ f ∈ b.declared pending
  interpreted : ∀ f ∈ b.declared pending, f.kind = .interpreted
  symbols : b.errors = #[] → ∀ f ∈ b.declared pending, f.Formed
  globals : b.errors = #[] → ∀ v ∈ b.program.globalVars, v.type.Formed
  bodies : b.errors = #[] → ∀ f ∈ b.program.functions, ∃ body, f.body = .structured body ∧
    body.Typed (b.signatures catalog pending) f.symbol.returnType
  declarations : b.errors = #[] → ∀ group ∈ b.program.globals, ∀ stmt ∈ group.stmts,
    stmt.OwnTyped (b.signatures catalog pending) .void

namespace Build.Typed

variable {catalog : Catalog} {ids : Ids} {pending : List Pending} {b : Build}

lemma start (hlinked : catalog.Linked) (ids : Ids) : Typed catalog [] ⟨catalog, ids, .empty, #[]⟩ where
  linked := hlinked
  sameTypes := ⟨rfl, rfl⟩
  functions _ hf := .inl hf
  interpreted _ hf := nomatch hf
  symbols _ _ hf := nomatch hf
  globals _ _ hv := nomatch hv
  bodies _ _ hf := nomatch hf
  declarations _ _ hgroup := nomatch hgroup

lemma formed (h : Typed catalog pending b) (hshape : b.Shaped catalog ids pending)
    (hcatalog : catalog.Formed) (hclean : b.errors = #[]) : b.catalog.Formed where
  linked := h.linked
  types := h.sameTypes.types ▸ hcatalog.types
  functions f hf := (h.functions f hf).elim (hcatalog.functions f) (h.symbols hclean f)
  globals v hv := (hshape.globals v hv).elim (hcatalog.globals v) (h.globals hclean v)
  containers := h.sameTypes.containers ▸ hcatalog.containers

lemma ofCatalog (h : Typed catalog pending b) {result : Ty} {stmt : Stmt}
    (hstmt : stmt.OwnTyped b.catalog.signatures result) :
    stmt.OwnTyped (b.signatures catalog pending) result := by
  refine hstmt.mono h.functions (fun type f hf => ?_) (fun _ _ hv => hv) fun _ _ _ _ hv => hv
  obtain ⟨container, hcontainer, hmethod⟩ := hf
  exact ⟨container, h.sameTypes.containers ▸ hcontainer, hmethod⟩

lemma withCatalog (h : Typed catalog pending b) {catalog' : Catalog} (hlinked : catalog'.Linked)
    (htypes : b.catalog.SameTypes catalog')
    (hfunctions : ∀ f, catalog'.HasFunction f → b.catalog.HasFunction f) {ids' : Ids}
    {errors : Array FileError} (herrors : errors = #[] → b.errors = #[]) :
    Typed catalog pending ⟨catalog', ids', b.program, errors⟩ where
  linked := hlinked
  sameTypes := h.sameTypes.trans htypes
  functions f hf := h.functions f (hfunctions f hf)
  interpreted := h.interpreted
  symbols hclean := h.symbols (herrors hclean)
  globals hclean := h.globals (herrors hclean)
  bodies hclean := h.bodies (herrors hclean)
  declarations hclean := h.declarations (herrors hclean)

end Build.Typed

/-! ### Signatures -/

namespace Build.Typed

variable {catalog : Catalog} {ids : Ids} {pending : List Pending} {b : Build}

lemma declare (h : Typed catalog pending b) (hnone : b.program.functions = []) {f : Pending}
    (hkind : f.symbol.kind = .interpreted) {catalog' : Catalog} {ids' : Ids}
    {errors : Array FileError} (hlinked : catalog'.Linked) (htypes : b.catalog.SameTypes catalog')
    (hfunctions : ∀ g, catalog'.HasFunction g → b.catalog.HasFunction g ∨ g = f.symbol)
    (herrors : errors = #[] → b.errors = #[] ∧ f.symbol.Formed) :
    Typed catalog (pending ++ [f]) ⟨catalog', ids', b.program, errors⟩ := by
  have hdeclared (g : FunctionSymbol) :
      g ∈ Build.declared (pending ++ [f]) ⟨catalog', ids', b.program, errors⟩ ↔
        g ∈ b.declared pending ∨ g = f.symbol := by
    simp [Build.declared, or_assoc]
  refine ⟨hlinked, h.sameTypes.trans htypes, fun g hg => ?_, fun g hg => ?_, fun hclean g hg => ?_,
    fun hclean => h.globals (herrors hclean).1, fun _ => forall_mem_of_eq_nil hnone _,
    fun hclean group hgroup stmt hstmt => ?_⟩
  · rw [hdeclared]
    rcases hfunctions g hg with hg | rfl
    · exact (h.functions g hg).imp_right .inl
    · exact .inr (.inr rfl)
  · rcases (hdeclared g).mp hg with hg | rfl
    · exact h.interpreted g hg
    · exact hkind
  · rcases (hdeclared g).mp hg with hg | rfl
    · exact h.symbols (herrors hclean).1 g hg
    · exact (herrors hclean).2
  · refine Stmt.OwnTyped.mono (fun g hg => ?_) ?_
      (h.declarations (herrors hclean).1 group hgroup stmt hstmt) ?_ ?_
    · exact hg.imp_right fun hg => (hdeclared g).mpr (.inl hg)
    · exact fun _ _ hf => hf
    · exact fun _ _ hv => hv
    · exact fun _ _ _ _ hv => hv

/-! ### Variables of packages -/

lemma formed_enter (h : Typed catalog pending b) (hshape : b.Shaped catalog ids pending)
    (hcatalog : catalog.Formed) (hclean : b.errors = #[]) {file : SourceFile} {package : String}
    {function : Option FunctionSymbol} (hpackage : b.catalog.Has package)
    (hresult : ∀ f ∈ function, f.returnType.Formed) : (b.enter file package function).Formed :=
  ⟨h.formed hshape hcatalog hclean, hpackage, hresult⟩

lemma declares (h : Typed catalog pending b) (hnone : b.program.functions = [])
    (hshape : b.Shaped catalog ids pending) (hcatalog : catalog.Formed) {pending' : List Pending}
    {b' : Build} (hstep : Declares pending b pending' b') : Typed catalog pending' b' := by
  have htypes := hstep.sameTypes
  have hlinked := hstep.linked h.linked
  cases hstep with
  | pass _ hclean => exact h.withCatalog hlinked htypes (fun _ => id) hclean
  | package name =>
    exact h.withCatalog hlinked htypes (fun _ => (Catalog.hasFunction_ensurePackage name).mp) id
  | load => exact h.withCatalog hlinked htypes (fun _ hf =>
      (Catalog.hasFunction_ensurePackage _).mp ((Catalog.mem_of_update hf).elim id id)) id
  | signature _ _ hclean hregister =>
    refine h.declare hnone rfl hlinked htypes
      (fun g => Catalog.hasFunction_registerFunction? hregister) fun hempty => ?_
    have hknown := h.sameTypes.types ▸ hcatalog.types
    obtain ⟨hbefore, hvars, htype⟩ := hclean hempty
    refine ⟨hbefore, fun v hv => (hvars v hv).formed hknown, ?_, fun _ hv => nomatch hv⟩
    rcases htype with hvoid | htype
    · exact hvoid ▸ trivial
    · exact htype.formed hknown
  | @global file decl type initializer errors _ hpresent hdecl hregister =>
    -- the declaration, as long as nothing is reported
    have hbefore (hclean : errors = #[]) :
        b.errors = #[] ∧ type.Formed ∧ ∀ e ∈ initializer, HasType b.catalog.signatures e type := by
      subst hclean
      have hbefore := (reporting_bindVarDecl decl).clean (b := b.entered file) hdecl
      refine ⟨hbefore, hasType_bindVarDecl (b := b.entered file) ?_ (fun v hv => ?_) hdecl⟩
      · exact h.formed_enter hshape hcatalog hbefore hpresent fun _ hf => nomatch hf
      · rw [Build.entered, Build.enter, Scopes.visible, Scopes.ofGlobals, flatten_cons,
          flatten_nil, append_nil] at hv
        exact (h.formed hshape hcatalog hbefore).globals v (Catalog.hasGlobal_of_globalsOf hv)
    refine ⟨hlinked, h.sameTypes.trans htypes,
      fun f hf => h.functions f (Catalog.hasFunction_registerGlobal? hregister hf), h.interpreted,
      fun hclean => h.symbols (hbefore hclean).1, fun hclean v hv => ?_,
      fun _ => forall_mem_of_eq_nil hnone _, fun hclean group hgroup stmt hstmt => ?_⟩
    · rw [globalVars_addGlobal] at hv
      rcases mem_append.mp hv with hv | hv
      · exact h.globals (hbefore hclean).1 v hv
      · rw [mem_singleton.mp hv]
        exact (hbefore hclean).2.1
    · obtain ⟨hclean, hformed, hinit⟩ := hbefore hclean
      rcases mem_addGlobal hgroup hstmt with rfl | ⟨group, hgroup, hstmt⟩
      · refine h.ofCatalog ?_
        cases initializer with
        | none => exact ⟨hformed, hformed⟩
        | some e => exact ⟨hformed, hinit e rfl⟩
      · exact h.declarations hclean group hgroup stmt hstmt

/-! ### Bodies -/

lemma bodyOf {f : Pending} (h : Typed catalog (f :: pending) b)
    (hshape : b.Shaped catalog ids (f :: pending)) (hcatalog : catalog.Formed)
    (hpackage : b.catalog.Has f.symbol.package) (hclean : (b.bodyOf f).2.errors = #[]) :
    b.errors = #[] ∧
      (b.bodyOf f).1.Typed (b.signatures catalog (f :: pending)) f.symbol.returnType := by
  have hbefore : b.errors = #[] := eq_empty_of_appended (prefix_bodyOf b f) hclean
  have hformed := h.formed hshape hcatalog hbefore
  have hsymbol := h.symbols hbefore f.symbol (by simp [Build.declared])
  have hbody : (b.inBody f).Formed := h.formed_enter hshape hcatalog hbefore hpackage fun _ hf =>
    Option.some.inj hf ▸ hsymbol.result
  have hscopes : (b.bodyScopes f).Formed := by
    obtain ⟨vars, hsub, heq⟩ := bodyScopes_eq b f
    intro v hv
    simp only [heq, Scopes.visible, flatten_cons, flatten_nil, append_nil] at hv
    rcases mem_append.mp hv with hv | hv
    · exact hsymbol.params v (hsub hv)
    · exact hformed.globals v (Catalog.hasGlobal_of_globalsOf hv)
  obtain ⟨p, hp, htyped⟩ := bodyOf_of_walks (R := fun stmt p => p.errors = #[] →
      stmt.Typed b.catalog.signatures f.symbol.returnType) b f fun errs _ =>
    (bound_bindStmt hbody rfl f.decl.body [] ⟨b.ids, b.bodyScopes f, errs⟩ fun _ => hscopes).mono
      fun _ _ hbound hclean => (hbound.typed hclean).2
  rw [hp] at hclean
  exact ⟨hbefore, fun part hpart => h.ofCatalog (htyped hclean part hpart)⟩

lemma bindFunction {f : Pending} (h : Typed catalog (f :: pending) b)
    (hshape : b.Shaped catalog ids (f :: pending)) (hcatalog : catalog.Formed)
    (hpackage : b.catalog.Has f.symbol.package) :
    Typed catalog pending ((bindFunction f).run b).2 := by
  have hbody := h.bodyOf hshape hcatalog hpackage
  rw [bindFunction_run, insert_of_function?_eq_none hshape.function?_eq_none]
  -- the same functions are declared, one of them with its body
  have hdeclared : Build.declared pending ⟨b.catalog, (b.bodyOf f).2.ids,
      ⟨b.program.functions ++ [⟨f.symbol, some f.file.index, .structured (b.bodyOf f).1⟩],
        b.program.globals⟩, (b.bodyOf f).2.errors⟩ = b.declared (f :: pending) := by
    simp [Build.declared]
  refine ⟨h.linked, h.sameTypes, hdeclared ▸ h.functions, hdeclared ▸ h.interpreted, fun hclean => ?_,
    fun hclean => ?_, fun hclean g hg => ?_, fun hclean => ?_⟩
  · exact hdeclared ▸ h.symbols (hbody hclean).1
  · exact h.globals (hbody hclean).1
  · rw [Build.signatures, hdeclared]
    rcases mem_append.mp hg with hg | hg
    · exact h.bodies (hbody hclean).1 g hg
    · rw [mem_singleton.mp hg]
      exact ⟨_, rfl, (hbody hclean).2⟩
  · rw [Build.signatures, hdeclared]
    exact h.declarations (hbody hclean).1

end Build.Typed

/-! ### Whole programs -/

section Files

variable {catalog : Catalog} (hcatalog : catalog.Formed) (ids : Ids) (files : List Syntax.Program)

include hcatalog

/-- **Every program that is bound without errors is typed**, and so is everything before the first
error. -/
theorem typed_bindFiles : (bindFiles catalog ids files).Typed catalog [] := by
  refine (bindFiles_induct (I := fun pending b => b.Shaped catalog ids pending ∧
    b.Typed catalog pending) catalog ids ⟨.start catalog ids, .start hcatalog.linked ids⟩ ?_ ?_ files).2
  · exact fun _ _ _ _ hnone hstep h =>
      ⟨h.1.declares hnone hstep, h.2.declares hnone h.1 hcatalog hstep⟩
  · exact fun pending b f hpackage h =>
      ⟨h.1.bindFunction, h.2.bindFunction h.1 hcatalog hpackage⟩

lemma formed_bindFiles (hclean : (bindFiles catalog ids files).errors = #[]) :
    (bindFiles catalog ids files).catalog.Formed :=
  (typed_bindFiles hcatalog ids files).formed (shaped_bindFiles catalog ids files) hcatalog hclean

end Files

/-! ### The package `sys` -/

instance Ty.decidableFormed : DecidablePred Ty.Formed
  | .unresolved => .isFalse id
  | .array element => decidableFormed element
  | .container name => inferInstanceAs (Decidable (name = builderName))
  | .integer _ | .float | .double | .bool | .string | .void => .isTrue trivial

instance FunctionSymbol.decidableFormed : DecidablePred FunctionSymbol.Formed := fun f =>
  decidable_of_iff ((∀ v ∈ f.params, v.type.Formed) ∧ f.returnType.Formed ∧
    ∀ v ∈ f.receiver, v.type.Formed)
    ⟨fun h => ⟨h.1, h.2.1, h.2.2⟩, fun h => ⟨h.params, h.result, h.receiver⟩⟩

instance Container.decidableFormed : DecidablePred Container.Formed := fun container =>
  decidable_of_iff (container.type.Formed ∧ (∀ v ∈ container.fields, v.type.Formed) ∧
    ∀ f ∈ container.methods, f.Formed)
    ⟨fun h => ⟨h.1, h.2.1, h.2.2⟩, fun h => ⟨h.type, h.fields, h.methods⟩⟩

instance Catalog.decidableFormed : DecidablePred Catalog.Formed := fun c =>
  decidable_of_iff ((∀ p ∈ c.packages, ∀ name ∈ p.loads, (c.package? name).isSome) ∧
    (∀ type ∈ c.types, type.Formed) ∧
    (∀ p ∈ c.packages, (∀ f ∈ p.functions, f.Formed) ∧ ∀ v ∈ p.globals, v.type.Formed) ∧
    ∀ container ∈ c.containers, container.Formed)
    ⟨fun h => ⟨h.1, h.2.1, fun f ⟨p, hp, hf⟩ => (h.2.2.1 p hp).1 f hf,
      fun v ⟨p, hp, hv⟩ => (h.2.2.1 p hp).2 v hv, h.2.2.2⟩,
    fun h => ⟨h.linked, h.types, fun p hp => ⟨fun f hf => h.functions f ⟨p, hp, hf⟩,
      fun v hv => h.globals v ⟨p, hp, hv⟩⟩, h.containers⟩⟩

lemma formed_withSys : (Catalog.empty.withSys {}).1.Formed := by
  decide +kernel

end Parcel
