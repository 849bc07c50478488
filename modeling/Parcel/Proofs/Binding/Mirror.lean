import Parcel.Proofs.Binding.Renaming
import Parcel.Proofs.Binding.Report
import Parcel.Proofs.Syntax.Tree

/-!
# Expressions under a renaming

Binding looks symbols up by their names and compares their types, never their ids. So an expression
that is bound where the symbols have other ids becomes the same expression with those ids, and the
same errors are reported.
-/

namespace Parcel

open Code BindM List

variable {α β γ δ : Type} {g : γ → δ}

/-! ### Matching binders -/

/-- Types, methods and functions can be looked up alike, in the second catalog under new ids. -/
structure Catalog.Matches (ρ : Renaming) (c c' : Catalog) : Prop where
  type? : ∀ name, c'.type? name = c.type? name
  similarType : ∀ name, Text.closest name (c'.types.map (·.name)) =
    Text.closest name (c.types.map (·.name))
  container? : ∀ type, c'.container? type = (c.container? type).map (·.rename ρ)
  functions : ∀ package, (c'.package? package).map (·.table) =
    (c.package? package).map (·.table.rename ρ)

/-- Both binders are at the same place, and names refer to the same symbols, in the second one under
new ids. -/
structure Binder.Matches (ρ : Renaming) (b b' : Binder) : Prop where
  catalog : b.catalog.Matches ρ b'.catalog
  package : b'.package = b.package
  current : b'.catalog.package? b.package = (b.catalog.package? b.package).map (·.rename ρ)
  function : b'.function = b.function.map (·.rename ρ)
  scopes : b'.scopes = b.scopes.rename ρ
  loops : b'.loops = b.loops.map (·.rename ρ)

section Lookup

variable {ρ : Renaming}

lemma Catalog.package?_rename (c : Catalog) (ρ : Renaming) (package : String) :
    (c.rename ρ).package? package = (c.package? package).map (·.rename ρ) :=
  find?_map

lemma Catalog.matches_rename (c : Catalog) (ρ : Renaming) : c.Matches ρ (c.rename ρ) := by
  refine ⟨fun _ => rfl, fun _ => rfl, fun _ => find?_map, fun package => ?_⟩
  rw [package?_rename, Option.map_map]
  rfl

lemma Scopes.lookup?_rename (s : Scopes) (name : String) :
    (s.rename ρ).lookup? name = (s.lookup? name).map (·.rename ρ) := by
  obtain ⟨chain⟩ := s
  simp only [Scopes.rename, Scopes.lookup?]
  induction chain with
  | nil => rfl
  | cons scope chain ih =>
    have hscope : (scope.map (·.rename ρ)).find? (·.name = name) =
        (scope.find? (·.name = name)).map (·.rename ρ) := find?_map
    rw [map_cons, findSome?_cons, findSome?_cons, hscope]
    cases scope.find? (·.name = name) with
    | none => exact ih
    | some => rfl

lemma Scopes.visibleNames_rename (s : Scopes) : (s.rename ρ).visibleNames = s.visibleNames := by
  have hnames : (s.rename ρ).names = s.names := by
    simp only [Scopes.names, Scopes.rename, flatMap_map, map_map]
    rfl
  rw [visibleNames, hnames, visibleNames]

lemma Container.method?_rename (c : Container) (name : String) :
    (c.rename ρ).method? name = (c.method? name).map (·.rename ρ) :=
  find?_map

lemma Package.function?_eq {p p' : Package} (h : p'.table = p.table.rename ρ) (name : String) :
    p'.function? name = (p.function? name).map (·.rename ρ) := by
  rw [Package.function?, h, FunctionTable.find?, Package.function?, FunctionTable.find?,
    Option.map_bind]
  exact congrArg _ (funext fun k => getElem?_map)

lemma Package.names_eq {p p' : Package} (h : p'.table = p.table.rename ρ) :
    p'.functions.map (·.name) = p.functions.map (·.name) := by
  rw [Package.functions, h]
  exact map_map

/-- The packages that unqualified calls are looked up in have the same functions. -/
lemma Catalog.Matches.searched {c c' : Catalog} (h : c.Matches ρ c') (current : Package) :
    (c'.searched (current.rename ρ)).map (·.table) =
      (c.searched current).map (·.table.rename ρ) := by
  simp only [Catalog.searched, map_filterMap, h.functions]
  rfl

end Lookup

/-! ### Mirrored computations -/

/-- From matching binders, the second computation reports what the first does and gives the image of
what that gives; neither does anything else. -/
def Mirrors {α β : Type} (ρ : Renaming) (f : α → β) (action : BindM α) (action' : BindM β) : Prop :=
  ∀ b b', b.Matches ρ b' → ∃ a new, action.run b = (a, b.adding new) ∧
    action'.run b' = (f a, b'.adding new)

section Rules

variable {ρ : Renaming} {f : α → β}

lemma mirrors_pure (f : α → β) (a : α) : Mirrors ρ f (pure a) (pure (f a)) :=
  fun b b' _ => ⟨a, [], by rw [b.adding_nil]; rfl, by rw [b'.adding_nil]; rfl⟩

lemma mirrors_report (cause : BindCause) (span : Span) :
    Mirrors ρ id (report cause span) (report cause span) :=
  fun b b' _ => ⟨(), _, report_run cause span b, report_run cause span b'⟩

/-- Binders that match still do when the same errors are reported in both. -/
lemma Binder.Matches.adding {b b' : Binder} (h : b.Matches ρ b') (new : List BindError) :
    (b.adding new).Matches ρ (b'.adding new) :=
  ⟨h.catalog, h.package, h.current, h.function, h.scopes, h.loops⟩

lemma Mirrors.bind {action : BindM α} {action' : BindM β} {next : α → BindM γ}
    {next' : β → BindM δ} (h : Mirrors ρ f action action')
    (hnext : ∀ a, Mirrors ρ g (next a) (next' (f a))) :
    Mirrors ρ g (action >>= next) (action' >>= next') := by
  intro b b' hb
  obtain ⟨a, new, hrun, hrun'⟩ := h b b' hb
  obtain ⟨c, more, hmore, hmore'⟩ := hnext a _ _ (hb.adding new)
  refine ⟨c, new ++ more, ?_, ?_⟩
  · rw [bind_run_bind, hrun, hmore, Binder.adding_adding]
  · rw [bind_run_bind, hrun', hmore', Binder.adding_adding]

/-- Both may look at their states, which match. -/
lemma mirrors_get_bind {next : Binder → BindM α} {next' : Binder → BindM β}
    (h : ∀ b b', b.Matches ρ b' → Mirrors ρ f (next b) (next' b')) :
    Mirrors ρ f (get >>= next) (get >>= next') :=
  fun b b' hb => h b b' hb b b' hb

lemma Mirrors.after {next : BindM γ} {next' : BindM δ} (h : Mirrors ρ g next next')
    (cause : BindCause) (span : Span) :
    Mirrors ρ g (do report cause span; next) (do report cause span; next') :=
  (mirrors_report cause span).bind fun _ => h

/-- A binder matches its image under the renaming that changes nothing. -/
lemma Binder.exists_matches (b : Binder) : ∃ b', b.Matches .refl b' :=
  ⟨{ b with
      catalog := b.catalog.rename .refl
      function := b.function.map (·.rename .refl)
      scopes := b.scopes.rename .refl
      loops := b.loops.map (·.rename .refl) },
    b.catalog.matches_rename .refl, rfl, b.catalog.package?_rename .refl b.package, rfl, rfl, rfl⟩

lemma Mirrors.reporting {action : BindM α} {action' : BindM β}
    (h : Mirrors .refl f action action') : Reporting action := by
  intro b
  obtain ⟨b', hb⟩ := b.exists_matches
  obtain ⟨a, new, hrun, -⟩ := h b b' hb
  exact ⟨a, new, hrun⟩

end Rules

/-! ### Types and conversions -/

section Parts

variable {ρ : Renaming} (e target : Expr)

lemma mirrors_bindNamedType (name : String) (hasArguments : Bool) (span : Span) :
    Mirrors ρ id (bindNamedType name hasArguments span) (bindNamedType name hasArguments span) := by
  refine mirrors_get_bind fun b b' h => ?_
  simp only [h.catalog.type?, h.catalog.similarType]
  split
  next type _ =>
    split
    · exact (mirrors_pure id Ty.unresolved).after _ _
    · exact mirrors_pure id type
  · exact (mirrors_pure id Ty.unresolved).after _ _

lemma mirrors_bindType (clause : Syntax.TypeClause) :
    Mirrors ρ id (bindType clause) (bindType clause) := by
  fun_induction bindType clause with
  | case1 element span ih => exact ih.bind fun element => mirrors_pure id (Ty.array element)
  | case2 | case4 => exact mirrors_bindNamedType _ _ _
  | case3 => exact (mirrors_pure id Ty.unresolved).after _ _

lemma mirrors_expr : Mirrors ρ (·.rename ρ) (pure e) (pure (e.rename ρ)) :=
  mirrors_pure _ e

lemma mirrors_found (f : Option FunctionSymbol) :
    Mirrors ρ (Option.map (·.rename ρ)) (pure f) (pure (f.map (·.rename ρ))) :=
  mirrors_pure _ f

lemma mirrors_notFound (cause : BindCause) (span : Span) :
    Mirrors ρ (Option.map (·.rename ρ)) (notFound cause span) (notFound cause span) :=
  (mirrors_found none).after cause span

lemma mirrors_unresolvedAfter (cause : BindCause) (reported span : Span) :
    Mirrors ρ (·.rename ρ) (unresolvedAfter cause reported span)
      (unresolvedAfter cause reported span) :=
  (mirrors_expr (.unresolved span)).after cause reported

lemma mirrors_convert (target : Ty) (explicit : Bool) :
    Mirrors ρ (·.rename ρ) (convert e target explicit) (convert (e.rename ρ) target explicit) := by
  simp only [convert, Expr.type_rename, Expr.span_rename]
  split
  · exact mirrors_expr e
  · split
    · exact mirrors_expr (.unresolved e.span)
    · split
      · exact mirrors_expr e
      · exact mirrors_expr (.conversion e target e.span)
      · split
        · exact mirrors_expr (.conversion e target e.span)
        · exact mirrors_unresolvedAfter _ _ _
      · exact mirrors_unresolvedAfter _ _ _

/-! ### Parts of expressions -/

lemma mirrors_bindLiteral (literal : Syntax.Literal) (span : Span) :
    Mirrors ρ (·.rename ρ) (bindLiteral literal span) (bindLiteral literal span) := by
  unfold bindLiteral
  split
  · exact mirrors_expr (.literal _ span)
  · exact mirrors_expr (.literal _ span)
  · split
    · split
      · exact mirrors_expr (.literal _ span)
      · exact mirrors_unresolvedAfter _ _ _
    · split
      · exact mirrors_expr (.literal _ span)
      · exact mirrors_unresolvedAfter _ _ _

lemma mirrors_bindName (text : String) (span : Span) :
    Mirrors ρ (·.rename ρ) (bindName text span) (bindName text span) := by
  refine mirrors_get_bind fun b b' h => ?_
  simp only [h.scopes, Scopes.lookup?_rename, Scopes.visibleNames_rename]
  cases b.scopes.lookup? text with
  | some v => exact mirrors_expr (.name v span)
  | none => exact mirrors_unresolvedAfter _ _ _

lemma mirrors_bindUnary (op : Syntax.UnaryOp) (operand : Expr) (span : Span) :
    Mirrors ρ (·.rename ρ) (bindUnary op operand span) (bindUnary op (operand.rename ρ) span) := by
  simp only [bindUnary, Expr.type_rename]
  split
  · exact mirrors_expr (.unresolved span)
  · split
    next meaning _ => exact mirrors_expr (.unary meaning.op operand meaning.result span)
    next => exact mirrors_unresolvedAfter _ _ _

lemma mirrors_bindBinary (op : Syntax.BinaryOp) (left right : Expr) (span : Span) :
    Mirrors ρ (·.rename ρ) (bindBinary op left right span)
      (bindBinary op (left.rename ρ) (right.rename ρ) span) := by
  simp only [bindBinary, Expr.type_rename]
  split
  · exact mirrors_expr (.unresolved span)
  · split
    next meaning _ =>
      exact (mirrors_convert left _ _).bind fun left =>
        (mirrors_convert right _ _).bind fun right =>
          mirrors_expr (.binary left meaning.op right meaning.result span)
    next => exact mirrors_unresolvedAfter _ _ _

lemma mirrors_qualifiedFunction (current : Package) (package name : Name) :
    Mirrors ρ (Option.map (·.rename ρ)) (qualifiedFunction current package name)
      (qualifiedFunction (current.rename ρ) package name) := by
  refine mirrors_get_bind fun b b' h => ?_
  have hfunctions := h.catalog.functions package.text
  have hreference : (current.rename ρ).canReference package.text =
      current.canReference package.text := rfl
  simp only [hreference, h.package]
  cases hp : b.catalog.package? package.text with
  | none =>
    rw [hp, Option.map_none, Option.map_eq_none_iff] at hfunctions
    rw [hfunctions]
    split
    · exact mirrors_found none
    · exact mirrors_notFound _ _
  | some p =>
    rw [hp, Option.map_some, Option.map_eq_some_iff] at hfunctions
    obtain ⟨p', hp', hfunctions⟩ := hfunctions
    simp only [hp', Package.function?_eq hfunctions, Package.names_eq hfunctions]
    split
    · cases p.function? name.text with
      | some f => exact mirrors_found (some f)
      | none => exact mirrors_notFound _ _
    · exact mirrors_notFound _ _

lemma mirrors_unqualifiedFunction (current : Package) (name : Name) :
    Mirrors ρ (Option.map (·.rename ρ)) (unqualifiedFunction current name)
      (unqualifiedFunction (current.rename ρ) name) := by
  have lookup (ps ps' : List Package)
      (h : ps'.map (·.table) = ps.map (·.table.rename ρ)) :
      ps'.findSome? (·.function? name.text) =
          (ps.findSome? (·.function? name.text)).map (·.rename ρ) ∧
        (ps'.flatMap fun p => p.functions.map (·.name)) =
          ps.flatMap fun p => p.functions.map (·.name) := by
    induction ps generalizing ps' with
    | nil =>
      rw [map_nil, map_eq_nil_iff] at h
      rw [h]
      exact ⟨rfl, rfl⟩
    | cons p ps ih =>
      obtain ⟨p', ps', rfl, hp, hps⟩ := map_eq_cons_iff.mp h
      obtain ⟨hfind, hnames⟩ := ih ps' hps
      rw [findSome?_cons, findSome?_cons, Package.function?_eq hp, hfind,
        flatMap_cons, flatMap_cons, hnames, Package.names_eq hp]
      refine ⟨?_, rfl⟩
      cases p.function? name.text <;> rfl
  refine mirrors_get_bind fun b b' h => ?_
  obtain ⟨hfind, hnames⟩ := lookup _ _ (h.catalog.searched current)
  simp only [hfind, hnames]
  cases (b.catalog.searched current).findSome? (·.function? name.text) with
  | some f => exact mirrors_found (some f)
  | none => exact mirrors_notFound _ _

lemma mirrors_calledFunction (package : Option Name) (name : Name) :
    Mirrors ρ (Option.map (·.rename ρ)) (calledFunction package name)
      (calledFunction package name) := by
  refine mirrors_get_bind fun b b' h => ?_
  simp only [h.package, h.current]
  cases b.catalog.package? b.package with
  | none => exact mirrors_found none
  | some current =>
    cases package with
    | some package => exact mirrors_qualifiedFunction current package name
    | none => exact mirrors_unqualifiedFunction current name

lemma mirrors_calledMethod (type : Ty) (name : Name) :
    Mirrors ρ (Option.map (·.rename ρ)) (calledMethod type name) (calledMethod type name) := by
  refine mirrors_get_bind fun b b' h => ?_
  rw [h.catalog.container?]
  cases b.catalog.container? type with
  | none => exact mirrors_notFound _ _
  | some container =>
    have hnames : (container.rename ρ).methods.map (·.name) = container.methods.map (·.name) := by
      rw [Container.methods_rename, map_map]
      rfl
    simp only [Option.map_some, Container.method?_rename, hnames]
    cases container.method? name.text with
    | some f => exact mirrors_found (some f)
    | none => exact mirrors_notFound _ _

lemma mirrors_checkArity (f : FunctionSymbol) (count : Nat) (span : Span) :
    Mirrors ρ (Option.map (·.rename ρ)) (checkArity f count span)
      (checkArity (f.rename ρ) count span) := by
  have hname : (f.rename ρ).qualifiedName = f.qualifiedName := rfl
  simp only [checkArity, FunctionSymbol.params_rename, length_map, hname]
  split
  · exact mirrors_found (some f)
  · exact mirrors_notFound _ _

lemma mirrors_bindInvocation {found found' : BindM (Option FunctionSymbol)}
    (hfound : Mirrors ρ (Option.map (·.rename ρ)) found found') (count : Nat)
    {discard discard' : BindM Unit} (hdiscard : Mirrors ρ id discard discard')
    {bind bind' : List Var → BindM (List Expr)}
    (hbind : ∀ params, Mirrors ρ (renameEach ρ) (bind params) (bind' (params.map (·.rename ρ))))
    {make make' : FunctionSymbol → List Expr → Expr}
    (hmake : ∀ f arguments,
      make' (f.rename ρ) (renameEach ρ arguments) = (make f arguments).rename ρ)
    (span : Span) :
    Mirrors ρ (·.rename ρ) (bindInvocation found count discard bind make span)
      (bindInvocation found' count discard' bind' make' span) := by
  refine hfound.bind fun f => ?_
  cases f with
  | none => exact hdiscard.bind fun _ => mirrors_expr (.unresolved span)
  | some f =>
    refine (mirrors_checkArity f count span).bind fun f => ?_
    cases f with
    | none => exact hdiscard.bind fun _ => mirrors_expr (.unresolved span)
    | some f =>
      refine (hbind f.params).bind fun arguments => ?_
      rw [hmake]
      exact mirrors_expr (make f arguments)

lemma isAssignable_rename : isAssignable (e.rename ρ) = isAssignable e := by
  cases e <;> rfl

lemma reportTarget_rename : reportTarget (e.rename ρ) = reportTarget e := by
  cases e <;> rfl

lemma reportIndexed_rename : reportIndexed (e.rename ρ) = reportIndexed e := by
  simp only [reportIndexed, Expr.type_rename, Expr.span_rename]

lemma Catalog.Matches.conversionTarget? {c c' : Catalog} (h : c.Matches ρ c')
    (package : Option Name) (name : Name) :
    conversionTarget? c' package name = conversionTarget? c package name := by
  cases package with
  | some => rfl
  | none => exact h.type? name.text

lemma mirrors_bindCall (package : Option Name) (name : Name) {operand? : Option (BindM Expr)}
    (hoperand : ∀ operand ∈ operand?, Mirrors ρ (·.rename ρ) operand operand) (count : Nat)
    {discard : BindM Unit} (hdiscard : Mirrors ρ id discard discard)
    {bind : List Var → BindM (List Expr)}
    (hbind : ∀ params, Mirrors ρ (renameEach ρ) (bind params) (bind (params.map (·.rename ρ))))
    (span : Span) :
    Mirrors ρ (·.rename ρ) (bindCall package name operand? count discard bind span)
      (bindCall package name operand? count discard bind span) := by
  refine mirrors_get_bind fun b b' h => ?_
  rw [h.catalog.conversionTarget?]
  split
  next operand _ =>
    refine (hoperand operand rfl).bind fun operand => (mirrors_convert operand _ _).bind fun e => ?_
    rw [Expr.withSpan_rename]
    exact mirrors_expr (e.withSpan span)
  next =>
    exact mirrors_bindInvocation (mirrors_calledFunction package name) count hdiscard hbind
      (fun _ _ => rfl) span

lemma mirrors_reportTarget :
    Mirrors ρ id (reportTarget target) (reportTarget (target.rename ρ)) := by
  rw [reportTarget_rename]
  unfold reportTarget
  split
  · exact mirrors_pure id ()
  · exact mirrors_report _ _

lemma mirrors_reportIndexed :
    Mirrors ρ id (reportIndexed target) (reportIndexed (target.rename ρ)) := by
  rw [reportIndexed_rename]
  unfold reportIndexed
  split
  · exact mirrors_pure id ()
  · exact mirrors_report _ _

lemma mirrors_reportMake (type : Ty) (typeSpan span : Span) :
    Mirrors ρ id (reportMake type typeSpan span) (reportMake type typeSpan span) := by
  unfold reportMake
  split
  · exact mirrors_pure id ()
  · split
    · exact mirrors_report _ _
    · exact mirrors_report _ _

end Parts

/-! ### Expressions -/

section Expressions

variable {ρ : Renaming}

section Lists

variable {es : List Syntax.Expr}
  (hes : ∀ e ∈ es, Mirrors ρ (·.rename ρ) (bindExpr e) (bindExpr e))
include hes

lemma mirrors_bindArguments (params : List Var) :
    Mirrors ρ (renameEach ρ) (bindArguments es params)
      (bindArguments es (params.map (·.rename ρ))) := by
  induction es generalizing params with
  | nil =>
    simp only [bindArguments]
    exact mirrors_pure _ []
  | cons argument arguments ih =>
    cases params with
    | nil =>
      simp only [map_nil, bindArguments]
      exact mirrors_pure _ []
    | cons param params =>
      simp only [map_cons, bindArguments]
      exact (hes argument mem_cons_self).bind fun argument =>
        (mirrors_convert argument _ _).bind fun argument =>
          (ih (fun e he => hes e (mem_cons_of_mem _ he)) params).bind fun arguments =>
            mirrors_pure _ (argument :: arguments)

lemma mirrors_bindElements (type : Ty) :
    Mirrors ρ (renameEach ρ) (bindElements type es) (bindElements type es) := by
  induction es with
  | nil =>
    simp only [bindElements]
    exact mirrors_pure _ []
  | cons element elements ih =>
    simp only [bindElements]
    exact (hes element mem_cons_self).bind fun element =>
      (mirrors_convert element _ _).bind fun element =>
        (ih fun e he => hes e (mem_cons_of_mem _ he)).bind fun elements =>
          mirrors_pure _ (element :: elements)

lemma mirrors_bindSingle? :
    ∀ operand ∈ bindSingle? es, Mirrors ρ (·.rename ρ) operand operand := by
  intro operand hoperand
  unfold bindSingle? at hoperand
  split at hoperand
  next argument =>
    cases hoperand
    exact hes argument mem_cons_self
  next => cases hoperand

lemma mirrors_discardAll : Mirrors ρ id (discardAll es) (discardAll es) := by
  induction es with
  | nil =>
    simp only [discardAll]
    exact mirrors_pure _ ()
  | cons e es ih =>
    simp only [discardAll]
    exact (hes e mem_cons_self).bind fun _ => ih fun e he => hes e (mem_cons_of_mem _ he)

end Lists

lemma mirrors_discard? {e? : Option Syntax.Expr}
    (he : ∀ e ∈ e?, Mirrors ρ (·.rename ρ) (bindExpr e) (bindExpr e)) :
    Mirrors ρ id (discard? e?) (discard? e?) := by
  cases e? with
  | none =>
    simp only [discard?]
    exact mirrors_pure _ ()
  | some e =>
    simp only [discard?]
    exact (he e rfl).bind fun _ => mirrors_pure _ ()

lemma mirrors_discardAll? {es? : Option (List Syntax.Expr)}
    (hes : ∀ es ∈ es?, ∀ e ∈ es, Mirrors ρ (·.rename ρ) (bindExpr e) (bindExpr e)) :
    Mirrors ρ id (discardAll? es?) (discardAll? es?) := by
  cases es? with
  | none =>
    simp only [discardAll?]
    exact mirrors_pure _ ()
  | some es =>
    simp only [discardAll?]
    exact mirrors_discardAll (hes es rfl)

/-- **Expressions are mirrored** where binders match. -/
theorem mirrors_bindExpr (e : Syntax.Expr) : Mirrors ρ (·.rename ρ) (bindExpr e) (bindExpr e) := by
  induction e using Syntax.Expr.structural with
  | literal value span =>
    simp only [bindExpr]
    exact mirrors_bindLiteral value span
  | name text span =>
    simp only [bindExpr]
    exact mirrors_bindName text span
  | paren inner span ih =>
    simp only [bindExpr]
    exact ih.bind fun inner => mirrors_expr (.paren inner span)
  | assign target value span iht ihv =>
    simp only [bindExpr]
    refine iht.bind fun target => ?_
    rw [isAssignable_rename, Expr.type_rename]
    split
    · exact ihv.bind fun value => (mirrors_convert value _ _).bind fun value =>
        mirrors_expr (.assign target value span)
    · exact (mirrors_reportTarget target).bind fun _ =>
        ihv.bind fun _ => mirrors_expr (.unresolved span)
  | unary op operand span ih =>
    simp only [bindExpr]
    exact ih.bind fun operand => mirrors_bindUnary op operand span
  | binary left op right span ihl ihr =>
    simp only [bindExpr]
    exact ihl.bind fun left => ihr.bind fun right => mirrors_bindBinary op left right span
  | call package name arguments span ih =>
    simp only [bindExpr]
    exact mirrors_bindCall package name (mirrors_bindSingle? ih) _ (mirrors_discardAll ih)
      (mirrors_bindArguments ih) span
  | methodCall receiver name arguments span ihr ih =>
    simp only [bindExpr]
    refine ihr.bind fun receiver => ?_
    rw [Expr.type_rename]
    split
    · exact (mirrors_discardAll ih).bind fun _ => mirrors_expr (.unresolved span)
    · exact mirrors_bindInvocation (mirrors_calledMethod _ name) _ (mirrors_discardAll ih)
        (mirrors_bindArguments ih) (fun _ _ => rfl) span
  | makeArray type length elements span ihl ihe =>
    cases length <;> cases elements <;> simp only [bindExpr] <;>
      refine (mirrors_bindType type).bind fun made => ?_
    case some.none length =>
      dsimp only [id_eq]
      split
      · exact (ihl length rfl).bind fun length => (mirrors_convert length _ _).bind fun length =>
          mirrors_expr (.makeLength length made span)
      · exact (mirrors_reportMake made _ span).bind fun _ =>
          (ihl length rfl).bind fun _ => mirrors_expr (.unresolved span)
    case none.some elements =>
      dsimp only [id_eq]
      split
      · exact (mirrors_bindElements (ihe elements rfl) _).bind fun elements =>
          mirrors_expr (.makeElements elements made span)
      · exact (mirrors_reportMake made _ span).bind fun _ =>
          (mirrors_discardAll (ihe elements rfl)).bind fun _ => mirrors_expr (.unresolved span)
    case none.none | some.some =>
      exact (mirrors_reportMake made _ span).bind fun _ => (mirrors_discard? ihl).bind fun _ =>
        (mirrors_discardAll? ihe).bind fun _ => mirrors_expr (.unresolved span)
  | index target index span iht ihi =>
    simp only [bindExpr]
    refine iht.bind fun target => ?_
    rw [Expr.type_rename]
    split
    next element _ =>
      exact ihi.bind fun index => (mirrors_convert index _ _).bind fun index =>
        mirrors_expr (.index target index element span)
    next =>
      exact (mirrors_reportIndexed target).bind fun _ =>
        ihi.bind fun _ => mirrors_expr (.unresolved span)

lemma mirrors_bindAs (e : Syntax.Expr) (target : Ty) :
    Mirrors ρ (·.rename ρ) (bindAs e target) (bindAs e target) :=
  (mirrors_bindExpr e).bind fun e => mirrors_convert e target false

/-- The type and the initial value of a declared variable. -/
lemma mirrors_bindVarDecl (decl : Syntax.VarDecl) :
    Mirrors ρ (fun result => (result.1, result.2.map (·.rename ρ))) (bindVarDecl decl)
      (bindVarDecl decl) := by
  obtain ⟨name, type?, init?, span⟩ := decl
  -- the check of the type at the end is the same in all cases
  have settle (type : Ty) (init : Option Expr) :
      Mirrors ρ (fun result => (result.1, result.2.map (·.rename ρ)))
        (if type = .void then do
          report (.voidVariable name.text) span
          pure (Ty.unresolved, init)
        else pure (type, init))
        (if type = .void then do
          report (.voidVariable name.text) span
          pure (Ty.unresolved, init.map (·.rename ρ))
        else pure (type, init.map (·.rename ρ))) := by
    split
    · exact (mirrors_pure _ (Ty.unresolved, init)).after _ _
    · exact mirrors_pure _ (type, init)
  cases type? with
  | none =>
    cases init? with
    | none =>
      simp only [bindVarDecl, Option.mapM_none, pure_bind]
      exact (settle .unresolved none).after _ _
    | some e =>
      simp only [bindVarDecl, Option.mapM_none, Option.mapM_some, pure_bind, bind_assoc,
        map_eq_pure_bind]
      refine (mirrors_bindExpr e).bind fun e => ?_
      rw [Expr.type_rename]
      exact settle e.type (some e)
  | some type =>
    cases init? with
    | none =>
      simp only [bindVarDecl, Option.mapM_none, Option.mapM_some, pure_bind, bind_assoc,
        map_eq_pure_bind]
      exact (mirrors_bindType type).bind fun type => settle type none
    | some e =>
      simp only [bindVarDecl, Option.mapM_some, pure_bind, bind_assoc, map_eq_pure_bind]
      exact (mirrors_bindType type).bind fun type => (mirrors_bindExpr e).bind fun e =>
        (mirrors_convert e type false).bind fun e => settle type (some e)

end Expressions

/-! ### Errors are only added -/

lemma reporting_bindType (clause : Syntax.TypeClause) : Reporting (bindType clause) :=
  (mirrors_bindType clause).reporting

lemma reporting_convert (e : Expr) (target : Ty) (explicit : Bool) :
    Reporting (convert e target explicit) :=
  (mirrors_convert e target explicit).reporting

lemma reporting_bindExpr (e : Syntax.Expr) : Reporting (bindExpr e) :=
  (mirrors_bindExpr e).reporting

lemma reporting_bindAs (e : Syntax.Expr) (target : Ty) : Reporting (bindAs e target) :=
  (mirrors_bindAs e target).reporting

lemma reporting_discardAll (es : List Syntax.Expr) : Reporting (discardAll es) :=
  (mirrors_discardAll fun e _ => mirrors_bindExpr e).reporting

lemma reporting_bindVarDecl (decl : Syntax.VarDecl) : Reporting (bindVarDecl decl) :=
  (mirrors_bindVarDecl decl).reporting

end Parcel
