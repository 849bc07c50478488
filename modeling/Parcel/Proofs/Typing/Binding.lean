import Parcel.Proofs.Binding.Program
import Parcel.Proofs.Typing.Operator

/-!
# Code that is bound without errors is typed

Where nothing is reported, nothing is unresolved: every expression has a type and every statement is
typed, provided that what names refer to has types that are formed.
-/

namespace Parcel

open Code BindM List

variable {c : Catalog} {type target : Ty} {f : FunctionSymbol} {errs : Array FileError}
  {e e' : Expr} {explicit : Bool} {name : Name} {stx : Syntax.Expr} {decl : Syntax.VarDecl}
  {b b' : Binder} {loops : List LoopLabels} {p : Progress}

/-! ### Catalogs -/

/-- The types of a container are formed. -/
structure Container.Formed (container : Container) : Prop where
  type : container.type.Formed
  fields : ∀ v ∈ container.fields, v.type.Formed
  methods : ∀ f ∈ container.methods, f.Formed

namespace Catalog

/-- Whether a container of a type has a method. -/
def HasMethod (c : Catalog) (type : Ty) (f : FunctionSymbol) : Prop :=
  ∃ container ∈ c.containers, container.type = type ∧ f ∈ container.methods

/-- All types in the catalog are formed, and all packages that are loaded are there. -/
structure Formed (c : Catalog) : Prop where
  linked : c.Linked
  types : ∀ type ∈ c.types, type.Formed
  functions : ∀ f, c.HasFunction f → f.Formed
  globals : ∀ v, c.HasGlobal v → v.type.Formed
  containers : ∀ container ∈ c.containers, container.Formed

/-- What code may refer to: variables of formed types, and the functions and methods of the
catalog. -/
def signatures (c : Catalog) : Signatures where
  var v := v.type.Formed
  function := c.HasFunction
  method := c.HasMethod

lemma Formed.method (h : c.Formed) (hf : c.HasMethod type f) : f.Formed := by
  obtain ⟨container, hcontainer, -, hf⟩ := hf
  exact (h.containers container hcontainer).methods f hf

end Catalog

/-! ### Types and conversions -/

lemma formed_bindType (hc : ∀ type ∈ b.catalog.types, type.Formed) (clause : Syntax.TypeClause)
    (errs : Array FileError) :
    b.Binds (bindType clause) errs fun type errs' => errs' = #[] → type.Formed := by
  have refused (cause : BindCause) (span : Span) (errs : Array FileError) :
      b.Binds (do report cause span; return Ty.unresolved) errs
        fun type errs' => errs' = #[] → type.Formed :=
    (report_binds cause span).bind fun _ _ hne => .pure fun hclean => absurd hclean hne
  have named (name : String) (hasArguments : Bool) (span : Span) (errs : Array FileError) :
      b.Binds (bindNamedType name hasArguments span) errs
        fun type errs' => errs' = #[] → type.Formed := by
    rw [bindNamedType]
    refine .get ?_
    dsimp only
    split
    next type htype =>
      split
      · exact refused _ _ errs
      · exact .pure fun _ => hc type (mem_of_find?_eq_some htype)
    next => exact refused _ _ errs
  fun_induction bindType clause with
  | case1 element span ih => exact ih.bind fun type errs' h => .pure h
  | case2 | case4 => exact named _ _ _ errs
  | case3 => exact refused _ _ errs

lemma Catalog.Denotes.formed (h : c.Denotes type) (hc : ∀ type ∈ c.types, type.Formed) :
    type.Formed := by
  obtain ⟨b, clause, rfl, hrun⟩ := h
  exact (formed_bindType hc clause #[]).of_run hrun rfl

lemma Conversion.eq_of_classify {source : Ty} (h : classify source target = .identity) :
    source = target := by
  have hsize : bySize source target ≠ .identity := by
    unfold bySize
    split <;> exact Conversion.noConfusion
  unfold classify at h
  split at h
  next heq => exact heq
  next =>
    split at h
    · cases h
    · split at h
      · exact absurd h hsize
      · exact absurd h hsize
      · cases h
      · cases h
      · split at h <;> cases h

lemma convert_before (h : (convert e target explicit).run (b.reported errs) =
    (e', b.reported #[])) : errs = #[] :=
  (reporting_convert e target explicit).clean h

lemma hasType_convert {sigs : Signatures} (h : (convert e target explicit).run (b.reported errs) =
      (e', b.reported #[])) (he : HasType sigs e e.type) (hsource : e.type.Formed)
    (htarget : target.Formed) : HasType sigs e' target := by
  have key : b.Binds (convert e target explicit) errs
      fun e' errs' => errs' = #[] → HasType sigs e' target := by
    unfold convert
    rw [if_neg hsource.ne_unresolved, if_neg htarget.ne_unresolved]
    split
    next hclass => exact .pure fun _ => Conversion.eq_of_classify hclass ▸ he
    next => exact .pure fun _ => .conversion _ he htarget
    next =>
      split
      · exact .pure fun _ => .conversion _ he htarget
      · exact (unresolvedAfter_binds _ _ _).mono fun _ _ h hclean => absurd hclean h.2
    next => exact (unresolvedAfter_binds _ _ _).mono fun _ _ h hclean => absurd hclean h.2
  exact key.of_run h rfl

/-! ### Calls -/

lemma hasFunction_of_qualifiedFunction {current : Package} {package : Name}
    (h : (qualifiedFunction current package name).run b = (some f, b')) :
    b.catalog.HasFunction f := by
  rw [qualifiedFunction, get_run_bind] at h
  dsimp only at h
  split at h
  · split at h
    · cases h
    next target htarget =>
      split at h
      next hf =>
        cases h
        exact ⟨target, Catalog.mem_of_package? htarget, Package.mem_of_function? hf⟩
      · cases h
  · split at h
    · cases h
    · cases h

lemma hasFunction_of_calledFunction {package : Option Name}
    (h : (calledFunction package name).run b = (some f, b')) : b.catalog.HasFunction f := by
  rw [calledFunction, get_run_bind] at h
  split at h
  · cases h
  next current _ =>
    cases package with
    | some => exact hasFunction_of_qualifiedFunction h
    | none =>
      rw [unqualifiedFunction, get_run_bind] at h
      dsimp only at h
      split at h
      next hf =>
        cases h
        obtain ⟨p, hp, hf⟩ := exists_of_findSome?_eq_some hf
        obtain ⟨searched, -, hp⟩ := mem_filterMap.mp hp
        exact ⟨p, Catalog.mem_of_package? hp, Package.mem_of_function? hf⟩
      · cases h

lemma hasMethod_of_calledMethod (h : (calledMethod type name).run b = (some f, b')) :
    b.catalog.HasMethod type f := by
  rw [calledMethod, get_run_bind] at h
  split at h
  next container hcontainer =>
    split at h
    next hf =>
      cases h
      have htype := find?_some hcontainer
      exact ⟨container, mem_of_find?_eq_some hcontainer, of_decide_eq_true htype,
        mem_of_find?_eq_some hf⟩
    · cases h
  · cases h

lemma UnaryOp.formed_of_result? {op : UnaryOp} {σ τ : Ty} (h : op.result? σ = some τ) :
    τ.Formed := by
  cases op with
  | negate | identity =>
    simp only [UnaryOp.result?] at h
    split at h
    next hσ => exact Option.some.inj h ▸ Ty.formed_of_isNumeric hσ
    next => cases h
  | logicalNot =>
    simp only [UnaryOp.result?] at h
    split at h
    next => exact Option.some.inj h ▸ trivial
    next => cases h

lemma formed_of_bindLiteral {value : Syntax.Literal} {span : Span} {constant : Constant}
    (h : (bindLiteral value span).run b = (.literal constant span, b')) : constant.Formed := by
  unfold bindLiteral at h
  split at h
  · cases h
    trivial
  · cases h
    trivial
  · split at h
    · split at h
      · cases h
        trivial
      · cases h
    · split at h
      next n hn =>
        cases h
        exact Numeral.width_of_integer? hn
      · cases h

/-! ### Expressions -/

/-- Where binding is, what is known has formed types, and so has what the function returns. -/
structure Binder.Formed (b : Binder) : Prop where
  catalog : b.catalog.Formed
  package : b.catalog.Has b.package
  result : ∀ f ∈ b.function, f.returnType.Formed

/-- The variables that are visible have formed types. -/
def Scopes.Formed (s : Scopes) : Prop :=
  ∀ v ∈ s.visible, v.type.Formed

/-- **No call is stranded**: the package of the file is there, and so are those that it loads. -/
theorem Binder.Formed.not_stranded (h : b.Formed) : ¬ b.Stranded := by
  obtain ⟨current, hcurrent⟩ := Option.isSome_iff_exists.mp h.package
  intro hstranded
  obtain ⟨name, hreference, hnone⟩ := hstranded current hcurrent
  have hname : b.catalog.Has name := by
    unfold Package.canReference at hreference
    rcases Bool.or_eq_true_iff.mp hreference with hown | hloaded
    · rw [of_decide_eq_true hown, Catalog.name_of_package? hcurrent]
      exact h.package
    · refine h.catalog.linked current (Catalog.mem_of_package? hcurrent) name ?_
      exact contains_iff_mem.mp hloaded
  rw [Catalog.Has, hnone] at hname
  cases hname

/-- An expression that is bound without errors has a type, and none was reported before. -/
def Bound (sigs : Signatures) (errs : Array FileError) (e : Expr) (errs' : Array FileError) : Prop :=
  errs' = #[] → errs = #[] ∧ HasType sigs e e.type ∧ e.type.Formed

/-- The same for expressions that have to be of some types. -/
def BoundAll (sigs : Signatures) (types : List Ty) (errs : Array FileError) (es : List Expr)
    (errs' : Array FileError) : Prop :=
  errs' = #[] → errs = #[] ∧ es.length = types.length ∧
    ((∀ type ∈ types, type.Formed) → ∀ p ∈ es.zip types, HasType sigs p.1 p.2)

/-- **Expressions that are bound without errors have a type.** -/
theorem bound_bindExpr (hb : b.Formed) (hscopes : b.scopes.Formed) (stx : Syntax.Expr)
    (errs : Array FileError) :
    b.Binds (bindExpr stx) errs (Bound b.catalog.signatures errs) := by
  have hcatalog := hb.catalog
  apply bindExpr_induct b
    (P := fun _ errs e errs' => Bound b.catalog.signatures errs e errs')
    (Q := fun _ types errs es errs' => BoundAll b.catalog.signatures types errs es errs')
  case failed =>
    intro stx errs errs' span h hclean
    rcases h hclean with ⟨sub, errs₁, e, hbound, htype⟩ | ⟨clause, errs₁, htype⟩ | hstranded
    · exact absurd htype (hbound rfl).2.2.ne_unresolved
    · exact ((formed_bindType hcatalog.types clause errs₁).of_run htype rfl).elim
    · exact absurd hstranded hb.not_stranded
  case literal =>
    intro value span constant errs hbound hclean
    exact ⟨hclean, .literal span (formed_of_bindLiteral hbound), by cases constant <;> trivial⟩
  case name =>
    intro text span v errs hv hclean
    have hformed := hscopes v (Scopes.mem_visible_of_lookup? hv)
    exact ⟨hclean, .name span hformed, hformed⟩
  case paren =>
    intro inner span errs e errs' h hclean
    obtain ⟨hbefore, he, hformed⟩ := h hclean
    exact ⟨hbefore, .paren span he, hformed⟩
  case assign =>
    rintro target value span errs t errs₁ e errs₂ e' errs' ht hassignable he hconv rfl
    obtain rfl := convert_before hconv
    obtain ⟨rfl, he, hesource⟩ := he rfl
    obtain ⟨rfl, ht, htformed⟩ := ht rfl
    have he' := hasType_convert hconv he hesource htformed
    refine ⟨rfl, ?_, htformed⟩
    cases ht with
    | name _ hv => exact .assignName _ span hv he'
    | index _ harray hindex _ => exact .assignIndex _ span harray hindex he'
    | _ => cases hassignable
  case unary =>
    intro op operand span errs e errs' meaning h _ hmeaning hclean
    obtain ⟨hbefore, he, -⟩ := h hclean
    have hresult := result?_of_resolveUnary hmeaning
    exact ⟨hbefore, .unary span he hresult, UnaryOp.formed_of_result? hresult⟩
  case binary =>
    rintro left op right span errs l errs₁ r errs₂ meaning l' errs₃ r' errs' hl hr - - hmeaning hl'
      hr' rfl
    obtain rfl := convert_before hr'
    obtain rfl := convert_before hl'
    obtain ⟨rfl, hr, hrformed⟩ := hr rfl
    obtain ⟨rfl, hl, hlformed⟩ := hl rfl
    obtain ⟨hresult, hoperand, hformed⟩ := result?_of_resolveBinary hmeaning hlformed
    exact ⟨rfl, .binary span (hasType_convert hl' hl hlformed hoperand)
      (hasType_convert hr' hr hrformed hoperand) hresult hformed, hformed⟩
  case conversion =>
    rintro package name operand span target errs e errs₁ e' errs' htarget he hconv rfl
    obtain rfl := convert_before hconv
    obtain ⟨rfl, he, hformed⟩ := he rfl
    have hmem : target ∈ b.catalog.types := by
      unfold conversionTarget? at htarget
      split at htarget
      · cases htarget
      · exact mem_of_find?_eq_some htarget
    have he' := (hasType_convert hconv he hformed (hcatalog.types target hmem)).withSpan span
    rw [he'.type_eq]
    exact ⟨rfl, he', hcatalog.types target hmem⟩
  case call =>
    intro package name arguments span f errs es errs' hf hlength hes hclean
    have hfunction := hasFunction_of_calledFunction hf
    have hformed := hcatalog.functions f hfunction
    obtain ⟨hbefore, hcount, htyped⟩ := hes hclean
    rw [length_map] at hcount
    exact ⟨hbefore, .call span hfunction hcount (htyped hformed.paramTypes), hformed.result⟩
  case methodCall =>
    intro receiver name arguments span f errs r errs₁ es errs' hr _ hf hlength hes hclean
    have hmethod := hasMethod_of_calledMethod hf
    have hformed := hcatalog.method hmethod
    obtain ⟨rfl, hcount, htyped⟩ := hes hclean
    obtain ⟨hbefore, hr, -⟩ := hr rfl
    rw [length_map] at hcount
    exact ⟨hbefore, .methodCall span hr hmethod hcount (htyped hformed.paramTypes), hformed.result⟩
  case makeLength =>
    rintro clause length span errs made errs₁ element e errs₂ e' errs' hmade helement he hconv rfl
    obtain rfl := convert_before hconv
    obtain ⟨rfl, he, hformed⟩ := he rfl
    have hmadeFormed := (formed_bindType hcatalog.types clause errs).of_run hmade
    have hbefore := (reporting_bindType clause).clean hmade
    cases made with
    | array =>
      exact ⟨hbefore, .makeLength span (hasType_convert hconv he hformed trivial)
        (hmadeFormed rfl), hmadeFormed rfl⟩
    | _ => cases helement
  case makeElements =>
    intro clause elements span errs made errs₁ element es errs' hmade helement hes hclean
    have hmadeFormed := (formed_bindType hcatalog.types clause errs).of_run hmade
    cases made with
    | array type =>
      obtain rfl : type = element := Option.some.inj helement
      obtain ⟨rfl, hcount, htyped⟩ := hes hclean
      have hbefore := (reporting_bindType clause).clean hmade
      have hconst (τ : Ty) (hτ : τ ∈ elements.map fun _ => type) : τ = type := by
        obtain ⟨-, -, rfl⟩ := mem_map.mp hτ
        rfl
      refine ⟨hbefore, .makeElements span (fun e he => ?_) (hmadeFormed rfl), hmadeFormed rfl⟩
      obtain ⟨τ, hp⟩ := exists_mem_zip hcount he
      rw [← hconst τ (of_mem_zip hp).2]
      exact htyped (fun σ hσ => hconst σ hσ ▸ hmadeFormed rfl) _ hp
    | _ => cases helement
  case index =>
    rintro target index span errs t errs₁ element e errs₂ e' errs' ht helement he hconv rfl
    obtain rfl := convert_before hconv
    obtain ⟨rfl, he, hformed⟩ := he rfl
    obtain ⟨rfl, ht, htformed⟩ := ht rfl
    cases htype : t.type with
    | array type =>
      rw [htype] at ht htformed helement
      obtain rfl : type = element := Option.some.inj helement
      exact ⟨rfl, .index span ht (hasType_convert hconv he hformed trivial) htformed, htformed⟩
    | _ =>
      rw [htype] at helement
      cases helement
  case nil => exact fun hclean => ⟨hclean, rfl, fun _ _ hp => nomatch hp⟩
  case cons =>
    intro stx stxs type types errs e errs₁ e' errs₂ es errs' he hconv hes hclean
    obtain ⟨rfl, hcount, htyped⟩ := hes hclean
    obtain rfl := convert_before hconv
    obtain ⟨rfl, he, hesource⟩ := he rfl
    refine ⟨rfl, by rw [length_cons, length_cons, hcount], fun hformed => ?_⟩
    rw [forall_mem_cons] at hformed
    rw [zip_cons_cons, forall_mem_cons]
    exact ⟨hasType_convert hconv he hesource hformed.1, htyped hformed.2⟩

lemma hasType_bindAs (hb : b.Formed) (hscopes : b.scopes.Formed) (htarget : target.Formed)
    (h : (bindAs stx target).run (b.reported errs) = (e, b.reported #[])) :
    HasType b.catalog.signatures e target := by
  have hbinds : b.Binds (bindAs stx target) errs
      fun e errs' => errs' = #[] → HasType b.catalog.signatures e target := by
    refine (bound_bindExpr hb hscopes stx errs).bind fun bound errs₁ hbound => ?_
    refine ((reporting_convert bound target false).binds b errs₁).mono fun e' errs' hconv hclean => ?_
    subst hclean
    obtain rfl := convert_before hconv.1
    obtain ⟨-, he, hformed⟩ := hbound rfl
    exact hasType_convert hconv.1 he hformed htarget
  exact hbinds.of_run h rfl

lemma Settled.eq_of_clean {found : Ty} (h : Settled found type errs #[]) :
    type = found ∧ errs = #[] := by
  rcases h with ⟨-, htype, herrs⟩ | ⟨-, hne⟩
  · exact ⟨htype, herrs.symm⟩
  · exact absurd rfl hne

lemma hasType_bindVarDecl (hb : b.Formed) (hscopes : b.scopes.Formed) {bound : Ty × Option Expr}
    (h : (bindVarDecl decl).run (b.reported errs) = (bound, b.reported #[])) :
    bound.1.Formed ∧ ∀ e ∈ bound.2, HasType b.catalog.signatures e bound.1 := by
  have formed {clause : Syntax.TypeClause} {t : Ty} {errs : Array FileError}
      (htype : (bindType clause).run (b.reported errs) = (t, b.reported #[])) : t.Formed :=
    (formed_bindType hb.catalog.types clause errs).of_run htype rfl
  have typed {stx : Syntax.Expr} {e : Expr} {errs : Array FileError}
      (hexpr : (bindExpr stx).run (b.reported errs) = (e, b.reported #[])) :
      errs = #[] ∧ HasType b.catalog.signatures e e.type ∧ e.type.Formed :=
    (bound_bindExpr hb hscopes stx errs).of_run hexpr rfl
  rcases (bindVarDecl_cases decl b errs).of_run h with ⟨-, -, hne⟩ |
    ⟨clause, t, errs₁, -, htype, hinit, hsettled⟩ | ⟨stx, e, errs₁, -, hexpr, hinit, hsettled⟩ |
    ⟨clause, t, errs₁, stx, e, errs₂, e', errs₃, -, htype, hexpr, hconv, hinit, hsettled⟩
  · exact absurd rfl hne
  · obtain ⟨heq, rfl⟩ := hsettled.eq_of_clean
    rw [hinit, heq]
    exact ⟨formed htype, fun e he => nomatch he⟩
  · obtain ⟨heq, rfl⟩ := hsettled.eq_of_clean
    obtain ⟨-, he, hformed⟩ := typed hexpr
    rw [hinit, heq]
    refine ⟨hformed, ?_⟩
    rintro _ ⟨⟩
    exact he
  · obtain ⟨heq, rfl⟩ := hsettled.eq_of_clean
    obtain rfl := convert_before hconv
    obtain ⟨rfl, he, hformed⟩ := typed hexpr
    rw [hinit, heq]
    refine ⟨formed htype, ?_⟩
    rintro _ ⟨⟩
    exact hasType_convert hconv he hformed (formed htype)

/-! ### Statements -/

/-- As long as nothing is reported, the variables that are visible have formed types. -/
def Progress.Formed (p : Progress) : Prop :=
  p.errors = #[] → p.scopes.Formed

lemma Binder.Formed.along (h : b.Formed) (loops : List LoopLabels) (p : Progress) :
    (b.along loops p).Formed :=
  ⟨h.catalog, h.package, h.result⟩

/-- A statement that is bound without errors is typed, and none was reported before. -/
structure BoundStmt (b : Binder) (result : Ty) (p : Progress) (stmt : Stmt) (p' : Progress) :
    Prop where
  typed : p'.errors = #[] → p.errors = #[] ∧ stmt.Typed b.catalog.signatures result
  formed : p'.Formed

lemma Scopes.visible_pop_subset (s : Scopes) : s.pop.visible ⊆ s.visible := by
  obtain ⟨- | ⟨inner, - | ⟨next, outer⟩⟩⟩ := s
  · exact List.Subset.refl _
  · exact List.Subset.refl _
  · exact subset_append_right _ _

lemma Progress.Formed.pop (h : p.Formed) : (p.within p.scopes.pop).Formed :=
  fun hclean v hv => h hclean v (p.scopes.visible_pop_subset hv)

lemma Progress.Formed.reported (h : p.Formed) (herrs : errs = #[] → p.errors = #[]) :
    (p.reported errs).Formed :=
  fun hclean => h (herrs hclean)

/-- **Statements that are bound without errors are typed.** -/
theorem bound_bindStmt (hb : b.Formed) (hf : b.function = some f) (stx : Syntax.Stmt)
    (loops : List LoopLabels) (p : Progress) (hp : p.Formed) :
    b.Walks loops (bindStmt stx) p (BoundStmt b f.returnType p) := by
  -- what is bound on the way, in scopes that have formed types as long as nothing is reported
  have before {α : Type} {action : BindM α} (haction : Reporting action) {loops : List LoopLabels}
      {p : Progress} {a : α} {errs : Array FileError}
      (h : action.run (b.along loops p) = (a, b.along loops (p.reported errs)))
      (hclean : errs = #[]) : p.errors = #[] := by
    subst hclean
    exact haction.clean (b := b.along loops p) h
  have hasType {loops : List LoopLabels} {p : Progress} (hp : p.Formed) {stx : Syntax.Expr}
      {target : Ty} {e : Expr} {errs : Array FileError}
      (h : (bindAs stx target).run (b.along loops p) = (e, b.along loops (p.reported errs)))
      (hclean : errs = #[]) (htarget : target.Formed) : HasType b.catalog.signatures e target := by
    have hbefore := before (reporting_bindAs stx target) h hclean
    subst hclean
    exact hasType_bindAs (b := b.along loops p) (hb.along loops p) (hp hbefore) htarget h
  refine (bindStmt_induct b
    (P := fun _ _ p stmt p' => p.Formed → BoundStmt b f.returnType p stmt p')
    (Q := fun _ _ p stmts p' => p.Formed → (p'.errors = #[] → p.errors = #[] ∧ ∀ stmt ∈ stmts,
      stmt.Typed b.catalog.signatures f.returnType) ∧ p'.Formed)
    ?failed ?declare ?bareReturn ?valueReturn ?expr ?breakLoop ?continueLoop ?block ?ifThen ?ifElse
    ?whileLoop ?forLoop ?fromTo ?loop ?nil ?cons stx loops p).mono fun _ _ h => h hp
  case failed =>
    intro loops stx p vars errs span _ _ h hp
    -- nothing unresolved is left if nothing is reported
    have hreported : errs ≠ #[] := by
      intro hclean
      obtain ⟨hbefore, ⟨value, e, hrun, htype⟩ | ⟨g, hg, htype⟩⟩ := h hclean
      · have hbound := (bound_bindExpr (hb.along loops p) (hp hbefore) value p.errors).of_run hrun
        exact (hbound hbefore).2.2.ne_unresolved htype
      · exact (hb.result g hg).ne_unresolved htype
    exact ⟨fun hclean => absurd hclean hreported, fun hclean => absurd hclean hreported⟩
  case declare =>
    intro loops decl p type initializer errs scopes hdecl hscopes hp
    have hbefore := before (reporting_bindVarDecl decl) hdecl
    have htyped (hclean : errs = #[]) : type.Formed ∧ ∀ e ∈ initializer,
        HasType b.catalog.signatures e type := by
      have hscopes := hp (hbefore hclean)
      subst hclean
      exact hasType_bindVarDecl (hb.along loops p) hscopes hdecl
    refine ⟨fun hclean => ⟨hbefore hclean, (typed_of_isLowered rfl).mpr ?_⟩, fun hclean v hv => ?_⟩
    · obtain ⟨hformed, hinit⟩ := htyped hclean
      cases initializer with
      | none => exact ⟨hformed, hformed⟩
      | some e => exact ⟨hformed, hinit e rfl⟩
    · have hchain : p.scopes.chain ≠ [] := by
        intro hnil
        simp [Scopes.declare?, hnil] at hscopes
      rw [Progress.scopes_reported, Progress.scopes_within, Scopes.eq_extend_of_declare? hscopes,
        Scopes.mem_visible_extend hchain] at hv
      rcases mem_append.mp hv with hv | hv
      · rw [mem_singleton.mp hv]
        exact (htyped hclean).1
      · exact hp (hbefore hclean) v hv
  case bareReturn =>
    intro _ span p _ hp
    exact ⟨fun hclean => ⟨hclean, (typed_of_isLowered rfl).mpr trivial⟩, hp⟩
  case valueReturn =>
    rintro loops value span p e errs hrun ⟨g, hg, htype⟩ _ _ hp
    obtain rfl := Option.some.inj (hf.symm.trans hg)
    have hbefore := before (reporting_bindExpr value) hrun
    refine ⟨fun hclean => ⟨hbefore hclean, (typed_of_isLowered rfl).mpr ?_⟩, hp.reported hbefore⟩
    have hbound := (bound_bindExpr (hb.along loops p) (hp (hbefore hclean)) value p.errors).of_run
      hrun
    exact htype ▸ (hbound hclean).2.1
  case expr =>
    intro loops value p e errs errs' hrun herrs hp
    have hbefore (hclean : errs' = #[]) : p.errors = #[] :=
      before (reporting_bindExpr value) hrun (eq_empty_of_appended herrs hclean)
    refine ⟨fun hclean => ⟨hbefore hclean, (typed_of_isLowered rfl).mpr ?_⟩, hp.reported hbefore⟩
    have hbound := (bound_bindExpr (hb.along loops p) (hp (hbefore hclean)) value p.errors).of_run
      hrun
    exact ⟨e.type, (hbound (eq_empty_of_appended herrs hclean)).2.1⟩
  case breakLoop | continueLoop =>
    intro labels _ span p hp
    exact ⟨fun hclean => ⟨hclean, (typed_of_isLowered rfl).mpr trivial⟩, hp⟩
  case block =>
    intro _ stmts span p ss p' h hp
    obtain ⟨htyped, hformed⟩ := h hp
    exact ⟨fun hclean => ⟨(htyped hclean).1, typed_block.mpr (htyped hclean).2⟩, hformed.pop⟩
  case ifThen =>
    intro _ condition branch span p c errs s p' hc h hp
    have hbefore := before (reporting_bindAs condition .bool) hc
    obtain ⟨htyped, hformed⟩ := h (hp.reported hbefore)
    refine ⟨fun hclean => ?_, hformed.pop⟩
    obtain ⟨hclean, hs⟩ := htyped hclean
    exact ⟨hbefore hclean, typed_ifThen.mpr ⟨hasType hp hc hclean trivial, hs⟩⟩
  case ifElse =>
    intro _ condition first second span p c errs s₁ p₁ s₂ p₂ hc h₁ h₂ hp
    have hbefore := before (reporting_bindAs condition .bool) hc
    obtain ⟨htyped₁, hformed₁⟩ := h₁ (hp.reported hbefore)
    obtain ⟨htyped₂, hformed₂⟩ := h₂ hformed₁.pop
    refine ⟨fun hclean => ?_, hformed₂.pop⟩
    obtain ⟨hclean₁, hs₂⟩ := htyped₂ hclean
    obtain ⟨hclean, hs₁⟩ := htyped₁ hclean₁
    exact ⟨hbefore hclean, typed_ifElse.mpr ⟨hasType hp hc hclean trivial, hs₁, hs₂⟩⟩
  case whileLoop =>
    intro _ condition body span p c errs s p' hc h hp
    have hscope : p.looping.Formed := hp
    have hbefore := before (reporting_bindAs condition .bool) hc
    obtain ⟨htyped, hformed⟩ := h (hscope.reported hbefore)
    refine ⟨fun hclean => ?_, hformed.pop⟩
    obtain ⟨hclean, hs⟩ := htyped hclean
    exact ⟨hbefore hclean, typed_whileLoop.mpr ⟨hasType hscope hc hclean trivial, hs⟩⟩
  case forLoop =>
    intro _ initial condition action body span p i p₁ c errs a p₂ s p₃ hi hc ha hs hp
    have hbefore := before (reporting_bindAs condition .bool) hc
    obtain ⟨htyped₁, hformed₁⟩ := hi hp
    obtain ⟨htyped₂, hformed₂⟩ := ha (hformed₁.reported hbefore)
    obtain ⟨htyped₃, hformed₃⟩ := hs hformed₂
    refine ⟨fun hclean => ?_, hformed₃.pop⟩
    obtain ⟨hclean₂, hs⟩ := htyped₃ hclean
    obtain ⟨hclean₁, haction⟩ := htyped₂ hclean₂
    obtain ⟨hclean, hinitial⟩ := htyped₁ (hbefore hclean₁)
    exact ⟨hclean, typed_forLoop.mpr
      ⟨hasType hformed₁ hc hclean₁ trivial, hinitial, haction, hs⟩⟩
  case fromTo =>
    intro _ iterator lower upper body span p l errs₁ u errs₂ s p' hl hu h hp
    have hscope : p.looping.Formed := hp
    have hbefore₁ := before (reporting_bindAs lower .int) hl
    have hbefore₂ (hclean : errs₂ = #[]) : errs₁ = #[] := before (reporting_bindAs upper .int) hu hclean
    obtain ⟨htyped, hformed⟩ := h fun hclean v hv => by
      rcases mem_append.mp hv with hv | hv
      · rw [mem_singleton.mp hv]
        trivial
      · exact hp (hbefore₁ (hbefore₂ hclean)) v hv
    refine ⟨fun hclean => ?_, hformed.pop⟩
    obtain ⟨hclean₂, hs⟩ := htyped hclean
    have hclean₁ := hbefore₂ hclean₂
    exact ⟨hbefore₁ hclean₁, typed_fromTo.mpr ⟨⟨trivial, rfl, hasType hscope hl hclean₁ trivial,
      hasType (hscope.reported hbefore₁) hu hclean₂ trivial⟩, hs⟩⟩
  case loop =>
    intro _ count body span p n errs s p' hn h hp
    have hscope : p.looping.Formed := hp
    have hbefore := before (reporting_bindAs count .int) hn
    obtain ⟨htyped, hformed⟩ := h (hp.reported hbefore)
    refine ⟨fun hclean => ?_, hformed.pop⟩
    obtain ⟨hclean, hs⟩ := htyped hclean
    exact ⟨hbefore hclean, typed_loop.mpr ⟨⟨trivial, rfl, hasType hscope hn hclean trivial⟩, hs⟩⟩
  case nil => exact fun hp => ⟨fun hclean => ⟨hclean, forall_mem_nil _⟩, hp⟩
  case cons =>
    intro _ stx stxs p s p₁ ss p₂ hs hss hp
    obtain ⟨htyped, hformed⟩ := hs hp
    obtain ⟨htyped', hformed'⟩ := hss hformed
    refine ⟨fun hclean => ?_, hformed'⟩
    obtain ⟨hclean₁, hall⟩ := htyped' hclean
    obtain ⟨hbefore, hstmt⟩ := htyped hclean₁
    exact ⟨hbefore, forall_mem_cons.mpr ⟨hstmt, hall⟩⟩

end Parcel
