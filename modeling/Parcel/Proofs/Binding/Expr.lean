import Parcel.Proofs.Binding.Mirror
import Parcel.Proofs.Code.Scoped

/-!
# Induction along the binding of expressions

What an expression of the source can become is said once, as an induction principle: either every
part is resolved and the parts are put together, or the expression is unresolved, and then an error
was reported, a part of it was unresolved already, or a package is not there.
-/

namespace Parcel

open Code BindM

variable {α β : Type} {b : Binder} {action : BindM α} {errs errs' : Array FileError}
  {arguments : List Syntax.Expr} (cause : BindCause)

/-! ### Results of computations -/

/-- From a state of a family of states, a computation goes to a state of the family; its result and
that state are related as told. -/
def Proceeds {σ : Type} (state : σ → Binder) (action : BindM α) (s : σ) (R : α → σ → Prop) : Prop :=
  ∃ a s', action.run (state s) = (a, state s') ∧ R a s'

namespace Proceeds

variable {σ : Type} {state : σ → Binder} {s : σ} {R : α → σ → Prop} {S : β → σ → Prop}
  {next : α → BindM β}

lemma pure {a : α} (h : R a s) : Proceeds state (Pure.pure a) s R :=
  ⟨a, s, rfl, h⟩

lemma bind_run {a : α} (s' : σ) (hrun : action.run (state s) = (a, state s'))
    (h : Proceeds state (next a) s' S) : Proceeds state (action >>= next) s S := by
  obtain ⟨c, s₁, hrun', hS⟩ := h
  exact ⟨c, s₁, by rw [bind_run_bind, hrun, hrun'], hS⟩

lemma bind (h : Proceeds state action s R)
    (hnext : ∀ a s₁, R a s₁ → Proceeds state (next a) s₁ S) :
    Proceeds state (action >>= next) s S := by
  obtain ⟨a, s₁, hrun, hR⟩ := h
  exact bind_run s₁ hrun (hnext a s₁ hR)

lemma get {next : Binder → BindM β} (h : Proceeds state (next (state s)) s S) :
    Proceeds state (MonadState.get >>= next) s S :=
  bind_run s rfl h

lemma mono {S : α → σ → Prop} (h : Proceeds state action s R) (himp : ∀ a s', R a s' → S a s') :
    Proceeds state action s S := by
  obtain ⟨a, s', hrun, hR⟩ := h
  exact ⟨a, s', hrun, himp a s' hR⟩

end Proceeds

/-- From the binder with some errors, a computation gives a result and adds errors, and does nothing
else; the result and the errors after it are related as told. -/
abbrev Binder.Binds (b : Binder) (action : BindM α) (errs : Array FileError)
    (R : α → Array FileError → Prop) : Prop :=
  Proceeds b.reported action errs R

/-- What holds of the result and the errors, by the run itself. -/
lemma Binder.Binds.of_run {R : α → Array FileError → Prop} (h : b.Binds action errs R) {a : α}
    (hrun : action.run (b.reported errs) = (a, b.reported errs')) : R a errs' := by
  obtain ⟨a₁, errs₁, hrun₁, hR⟩ := h
  obtain ⟨rfl, hb⟩ := Prod.mk.inj (hrun₁.symm.trans hrun)
  obtain rfl : errs₁ = errs' := congrArg Build.errors (congrArg Binder.toBuild hb)
  exact hR

/-- A computation that does nothing but report errors gives the result that it has. -/
lemma Reporting.binds (h : Reporting action) (b : Binder) (errs : Array FileError) :
    b.Binds action errs fun a errs' => action.run (b.reported errs) = (a, b.reported errs') ∧
      errs.toList <+: errs'.toList := by
  obtain ⟨a, errs', hrun, hprefix⟩ := h.run b errs
  exact ⟨a, errs', hrun, hrun, hprefix⟩

/-- A result may be given up for its errors. -/
lemma Reporting.discarded (h : Reporting action) {a : β} {R : β → Array FileError → Prop}
    (hR : ∀ errs', (errs' = #[] → errs = #[]) → R a errs') :
    b.Binds (do let _ ← action; return a) errs R :=
  (h.binds b errs).bind fun _ errs₁ hrun =>
    .pure (hR errs₁ (eq_empty_of_appended hrun.2))

/-! ### Outcomes of the parts -/

/-- A call may stay unresolved without an error: the current package is not there, or another one
that it may name is not. -/
def Binder.Stranded (b : Binder) : Prop :=
  ∀ current, b.catalog.package? b.package = some current →
    ∃ name, current.canReference name = true ∧ b.catalog.package? name = none

lemma unresolvedAfter_binds (reported span : Span) :
    b.Binds (unresolvedAfter cause reported span) errs fun e errs' =>
      e = .unresolved span ∧ errs' ≠ #[] :=
  ⟨_, _, rfl, rfl, Array.push_ne_empty⟩

lemma notFound_binds (span : Span) :
    b.Binds (notFound cause span) errs fun f errs' => f = none ∧ errs' ≠ #[] :=
  ⟨_, _, rfl, rfl, Array.push_ne_empty⟩

lemma report_binds (span : Span) : b.Binds (report cause span) errs fun _ errs' => errs' ≠ #[] :=
  ⟨_, _, rfl, Array.push_ne_empty⟩

lemma bindLiteral_cases (value : Syntax.Literal) (span : Span) (b : Binder)
    (errs : Array FileError) :
    (∃ constant, (bindLiteral value span).run (b.reported errs) =
      (.literal constant span, b.reported errs)) ∨
      b.Binds (bindLiteral value span) errs fun e errs' => e = .unresolved span ∧ errs' ≠ #[] := by
  unfold bindLiteral
  split
  · exact .inl ⟨_, rfl⟩
  · exact .inl ⟨_, rfl⟩
  · split
    · split
      · exact .inl ⟨_, rfl⟩
      · exact .inr (unresolvedAfter_binds _ _ _)
    · split
      · exact .inl ⟨_, rfl⟩
      · exact .inr (unresolvedAfter_binds _ _ _)

lemma reportTarget_binds (target : Expr) :
    b.Binds (reportTarget target) errs fun _ errs' =>
      errs' = #[] → target.type = .unresolved ∧ errs = #[] := by
  unfold reportTarget
  split
  · exact .pure fun h => ⟨rfl, h⟩
  · exact (report_binds _ _).mono fun _ _ hne h => absurd h hne

lemma reportIndexed_binds (target : Expr) :
    b.Binds (reportIndexed target) errs fun _ errs' =>
      errs' = #[] → target.type = .unresolved ∧ errs = #[] := by
  unfold reportIndexed
  split
  next htype => exact .pure fun h => ⟨htype, h⟩
  next => exact (report_binds _ _).mono fun _ _ hne h => absurd h hne

lemma reportMake_binds (type : Ty) (typeSpan span : Span) :
    b.Binds (reportMake type typeSpan span) errs fun _ errs' =>
      errs' = #[] → type = .unresolved ∧ errs = #[] := by
  unfold reportMake
  split
  next htype => exact .pure fun h => ⟨htype, h⟩
  next =>
    split
    · exact (report_binds _ _).mono fun _ _ hne h => absurd h hne
    · exact (report_binds _ _).mono fun _ _ hne h => absurd h hne

/-- A function is found and nothing is reported, or none is found, for a reason if nothing is
reported. -/
def FoundOr (why : Prop) (found : BindM (Option FunctionSymbol)) (b : Binder)
    (errs : Array FileError) : Prop :=
  (∃ f, found.run (b.reported errs) = (some f, b.reported errs)) ∨
    b.Binds found errs fun f? errs' => f? = none ∧ (errs' = #[] → why)

section Found

variable {why : Prop}

lemma FoundOr.some (f : FunctionSymbol) : FoundOr why (pure (some f)) b errs :=
  .inl ⟨f, rfl⟩

lemma FoundOr.notFound (cause : BindCause) (span : Span) :
    FoundOr why (notFound cause span) b errs :=
  .inr ((notFound_binds cause span).mono fun _ _ h => ⟨h.1, fun hclean => absurd hclean h.2⟩)

lemma FoundOr.get {next : Binder → BindM (Option FunctionSymbol)}
    (h : FoundOr why (next (b.reported errs)) b errs) : FoundOr why (MonadState.get >>= next) b errs :=
  h

lemma foundOr_qualifiedFunction {current : Package}
    (hcurrent : b.catalog.package? b.package = some current) (package name : Name) :
    FoundOr b.Stranded (qualifiedFunction current package name) b errs := by
  refine .get ?_
  dsimp only
  split
  next hreference =>
    split
    next htarget =>
      -- the package may be named, but it is not there
      refine .inr (.pure ⟨rfl, fun _ current' hcurrent' => ?_⟩)
      obtain rfl := Option.some.inj (hcurrent.symm.trans hcurrent')
      exact ⟨package.text, hreference, htarget⟩
    next =>
      split
      · exact .some _
      · exact .notFound _ _
  next =>
    split
    · exact .notFound _ _
    · exact .notFound _ _

lemma foundOr_calledFunction (package : Option Name) (name : Name) (b : Binder)
    (errs : Array FileError) : FoundOr b.Stranded (calledFunction package name) b errs := by
  refine .get ?_
  split
  next hnone =>
    refine .inr (.pure ⟨rfl, fun _ current h => ?_⟩)
    cases hnone.symm.trans h
  next current hcurrent =>
    cases package with
    | some package => exact foundOr_qualifiedFunction hcurrent package name
    | none =>
      refine .get ?_
      dsimp only
      split
      · exact .some _
      · exact .notFound _ _

lemma foundOr_calledMethod (why : Prop) (type : Ty) (name : Name) (b : Binder)
    (errs : Array FileError) :
    FoundOr why (calledMethod type name) b errs := by
  refine .get ?_
  split
  · split
    · exact .some _
    · exact .notFound _ _
  · exact .notFound _ _

/-- The function is found and called with as many arguments as it takes, or the call is
unresolved. -/
lemma bindInvocation_cases {found : BindM (Option FunctionSymbol)} (hfound : FoundOr why found b errs)
    (count : Nat) {discard : BindM Unit} (hdiscard : Reporting discard)
    (bind : List Var → BindM (List Expr)) (make : FunctionSymbol → List Expr → Expr) (span : Span) :
    (∃ f, found.run (b.reported errs) = (some f, b.reported errs) ∧ count = f.params.length ∧
      (bindInvocation found count discard bind make span).run (b.reported errs) =
        (do let es ← bind f.params; return make f es : BindM Expr).run (b.reported errs)) ∨
      b.Binds (bindInvocation found count discard bind make span) errs fun e errs' =>
        e = .unresolved span ∧ (errs' = #[] → why) := by
  obtain ⟨f, hf⟩ | ⟨f?, errs₁, hrun, rfl, hwhy⟩ := hfound
  · by_cases hcount : count = f.params.length
    · refine .inl ⟨f, hf, hcount, ?_⟩
      rw [bindInvocation, bind_run_bind, hf]
      dsimp only [checkArity]
      rw [if_pos hcount]
      rfl
    · right
      refine .bind_run _ hf ?_
      dsimp only [checkArity]
      rw [if_neg hcount]
      refine (notFound_binds _ _).bind fun f? errs₁ h => ?_
      obtain ⟨rfl, hne⟩ := h
      exact hdiscard.discarded fun errs' hclean => ⟨rfl, fun h => absurd (hclean h) hne⟩
  · refine .inr (.bind_run _ hrun ?_)
    exact hdiscard.discarded fun errs' hclean => ⟨rfl, fun h => hwhy (hclean h)⟩

end Found

/-! ### The induction -/

section Induction

variable {P : Syntax.Expr → Array FileError → Expr → Array FileError → Prop}
  {Q : List Syntax.Expr → List Ty → Array FileError → List Expr → Array FileError → Prop}
  (nil : ∀ {errs}, Q [] [] errs [] errs)
  (cons : ∀ {stx stxs type types errs e errs₁ e' errs₂ es errs'}, P stx errs e errs₁ →
    (convert e type false).run (b.reported errs₁) = (e', b.reported errs₂) →
    Q stxs types errs₂ es errs' → Q (stx :: stxs) (type :: types) errs (e' :: es) errs')
include nil cons

lemma bindArguments_induct (ih : ∀ e ∈ arguments, ∀ errs, b.Binds (bindExpr e) errs (P e errs))
    {params : List Var} (hlength : arguments.length = params.length) (errs : Array FileError) :
    b.Binds (bindArguments arguments params) errs
      (Q arguments (params.map (·.type)) errs) := by
  induction arguments generalizing params errs with
  | nil =>
    obtain rfl : params = [] := List.length_eq_zero_iff.mp hlength.symm
    rw [bindArguments]
    · exact .pure nil
    · simp
  | cons argument arguments ihs =>
    obtain - | ⟨param, params⟩ := params
    · cases hlength
    · rw [bindArguments]
      refine (ih argument List.mem_cons_self errs).bind fun e errs₁ he => ?_
      refine ((reporting_convert e param.type false).binds b errs₁).bind fun e' errs₂ hconvert => ?_
      refine (ihs (fun e he => ih e (List.mem_cons_of_mem _ he)) (Nat.succ.inj hlength) errs₂).bind
        fun es errs' hes => ?_
      exact .pure (cons he hconvert.1 hes)

lemma bindElements_induct (element : Ty) {elements : List Syntax.Expr}
    (ih : ∀ e ∈ elements, ∀ errs, b.Binds (bindExpr e) errs (P e errs)) (errs : Array FileError) :
    b.Binds (bindElements element elements) errs
      (Q elements (elements.map fun _ => element) errs) := by
  induction elements generalizing errs with
  | nil =>
    rw [bindElements]
    exact .pure nil
  | cons e elements ihs =>
    rw [bindElements]
    refine (ih e List.mem_cons_self errs).bind fun e errs₁ he => ?_
    refine ((reporting_convert e element false).binds b errs₁).bind fun e' errs₂ hconvert => ?_
    refine (ihs (fun e he => ih e (List.mem_cons_of_mem _ he)) errs₂).bind fun es errs' hes => ?_
    exact .pure (cons he hconvert.1 hes)

variable (b) in
/-- **Induction along the binding of expressions**, from a binder with whatever errors. A property
`P` of an expression, the errors before it, what it becomes and the errors after it holds throughout
if it passes from the parts to each form; `Q` is the same for expressions that have to be of some
types. -/
theorem bindExpr_induct
    (failed : ∀ {stx errs errs' span},
      (errs' = #[] → (∃ sub errs₁ e, P sub errs₁ e #[] ∧ e.type = .unresolved) ∨
        (∃ type errs₁, (bindType type).run (b.reported errs₁) = (.unresolved, b.reported #[])) ∨
        b.Stranded) →
      P stx errs (.unresolved span) errs')
    (literal : ∀ {value span constant errs},
      (bindLiteral value span).run (b.reported errs) = (.literal constant span, b.reported errs) →
      P (.literal value span) errs (.literal constant span) errs)
    (name : ∀ {text span v errs}, b.scopes.lookup? text = some v →
      P (.name text span) errs (.name v span) errs)
    (paren : ∀ {inner span errs e errs'}, P inner errs e errs' →
      P (.paren inner span) errs (.paren e span) errs')
    (assign : ∀ {target value span errs t errs₁ e errs₂ e' errs'}, P target errs t errs₁ →
      isAssignable t → P value errs₁ e errs₂ →
      (convert e t.type false).run (b.reported errs₂) = (e', b.reported errs') →
      P (.assign target value span) errs (.assign t e' span) errs')
    (unary : ∀ {op operand span errs e errs' meaning}, P operand errs e errs' →
      e.type ≠ .unresolved → resolveUnary op e.type = some meaning →
      P (.unary op operand span) errs (.unary meaning.op e meaning.result span) errs')
    (binary : ∀ {left op right span errs l errs₁ r errs₂ meaning l' errs₃ r' errs'},
      P left errs l errs₁ → P right errs₁ r errs₂ → l.type ≠ .unresolved → r.type ≠ .unresolved →
      resolveBinary op l.type r.type = some meaning →
      (convert l meaning.operand false).run (b.reported errs₂) = (l', b.reported errs₃) →
      (convert r meaning.operand false).run (b.reported errs₃) = (r', b.reported errs') →
      P (.binary left op right span) errs (.binary l' meaning.op r' meaning.result span) errs')
    (conversion : ∀ {package name operand span target errs e errs₁ e' errs'},
      conversionTarget? b.catalog package name = some target → P operand errs e errs₁ →
      (convert e target true).run (b.reported errs₁) = (e', b.reported errs') →
      P (.call package name [operand] span) errs (e'.withSpan span) errs')
    (call : ∀ {package name arguments span f errs es errs'},
      (calledFunction package name).run (b.reported errs) = (some f, b.reported errs) →
      arguments.length = f.params.length → Q arguments (f.params.map (·.type)) errs es errs' →
      P (.call package name arguments span) errs (.call f es span) errs')
    (methodCall : ∀ {receiver name arguments span f errs r errs₁ es errs'}, P receiver errs r errs₁ →
      r.type ≠ .unresolved →
      (calledMethod r.type name).run (b.reported errs₁) = (some f, b.reported errs₁) →
      arguments.length = f.params.length → Q arguments (f.params.map (·.type)) errs₁ es errs' →
      P (.methodCall receiver name arguments span) errs (.methodCall f r es span) errs')
    (makeLength : ∀ {type length span errs made errs₁ element e errs₂ e' errs'},
      (bindType type).run (b.reported errs) = (made, b.reported errs₁) →
      made.element? = some element → P length errs₁ e errs₂ →
      (convert e .int false).run (b.reported errs₂) = (e', b.reported errs') →
      P (.makeArray type (some length) none span) errs (.makeLength e' made span) errs')
    (makeElements : ∀ {type elements span errs made errs₁ element es errs'},
      (bindType type).run (b.reported errs) = (made, b.reported errs₁) →
      made.element? = some element → Q elements (elements.map fun _ => element) errs₁ es errs' →
      P (.makeArray type none (some elements) span) errs (.makeElements es made span) errs')
    (index : ∀ {target index span errs t errs₁ element e errs₂ e' errs'}, P target errs t errs₁ →
      t.type.element? = some element → P index errs₁ e errs₂ →
      (convert e .int false).run (b.reported errs₂) = (e', b.reported errs') →
      P (.index target index span) errs (.index t e' element span) errs')
    (stx : Syntax.Expr) (errs : Array FileError) : b.Binds (bindExpr stx) errs (P stx errs) := by
  -- Either something was reported, or a part was unresolved before.
  have reported {stx errs errs' e span} (h : e = .unresolved span ∧ errs' ≠ #[]) :
      P stx errs e errs' :=
    h.1 ▸ failed fun hclean => absurd hclean h.2
  have inherited {stx errs errs'} (span : Span)
      (h : errs' = #[] → ∃ sub errs₁ e, P sub errs₁ e #[] ∧ e.type = .unresolved) :
      P stx errs (.unresolved span) errs' :=
    failed fun hclean => .inl (h hclean)
  have stranded {stx errs errs' e span} (h : e = .unresolved span ∧ (errs' = #[] → b.Stranded)) :
      P stx errs e errs' :=
    h.1 ▸ failed fun hclean => .inr (.inr (h.2 hclean))
  have converted (e : Expr) (target : Ty) (explicit : Bool) (errs : Array FileError) :=
    (reporting_convert e target explicit).binds b errs
  induction stx using Syntax.Expr.structural generalizing errs with
  | literal value span =>
    rw [bindExpr]
    obtain ⟨constant, h⟩ | h := bindLiteral_cases value span b errs
    · exact ⟨_, _, h, literal h⟩
    · exact h.mono fun _ _ => reported
  | name text =>
    rw [bindExpr]
    refine .get ?_
    dsimp only
    split
    next v h => exact .pure (name h)
    next => exact (unresolvedAfter_binds _ _ _).mono fun _ _ => reported
  | paren inner span ih =>
    rw [bindExpr]
    exact (ih errs).bind fun e errs' h => .pure (paren h)
  | assign target value span iht ihv =>
    rw [bindExpr]
    refine (iht errs).bind fun t errs₁ ht => ?_
    split
    next h =>
      refine (ihv errs₁).bind fun e errs₂ he => ?_
      refine (converted e t.type false errs₂).bind fun e' errs' hconvert => ?_
      exact .pure (assign ht h he hconvert.1)
    next h =>
      refine (reportTarget_binds t).bind fun _ errs₂ htarget => ?_
      refine (reporting_bindExpr value).discarded fun errs' hclean => ?_
      refine inherited span fun h => ⟨target, errs, t, ?_⟩
      obtain ⟨htype, rfl⟩ := htarget (hclean h)
      exact ⟨ht, htype⟩
  | unary op operand span ih =>
    rw [bindExpr]
    refine (ih errs).bind fun e errs₁ he => ?_
    unfold bindUnary
    split
    next h =>
      refine .pure (inherited span fun hclean => ⟨operand, errs, e, ?_⟩)
      subst hclean
      exact ⟨he, h⟩
    next h =>
      split
      next meaning hmeaning => exact .pure (unary he h hmeaning)
      next => exact (unresolvedAfter_binds _ _ _).mono fun _ _ => reported
  | binary left op right span ihl ihr =>
    rw [bindExpr]
    refine (ihl errs).bind fun l errs₁ hl => ?_
    obtain ⟨r, errs₂, hrun, hr⟩ := ihr errs₁
    refine .bind_run _ hrun ?_
    unfold bindBinary
    split
    next h =>
      refine .pure (inherited span fun hclean => ?_)
      subst hclean
      obtain rfl := (reporting_bindExpr right).clean hrun
      rcases h with h | h
      · exact ⟨left, errs, l, hl, h⟩
      · exact ⟨right, #[], r, hr, h⟩
    next h =>
      obtain ⟨hltype, hrtype⟩ := not_or.mp h
      split
      next meaning hmeaning =>
        refine (converted l meaning.operand false errs₂).bind fun l' errs₃ hl' => ?_
        refine (converted r meaning.operand false errs₃).bind fun r' errs' hr' => ?_
        exact .pure (binary hl hr hltype hrtype hmeaning hl'.1 hr'.1)
      next => exact (unresolvedAfter_binds _ _ _).mono fun _ _ => reported
  | call package name arguments span ih =>
    have called : b.Binds (bindInvocation (calledFunction package name) arguments.length
        (discardAll arguments) (bindArguments arguments) (fun f es => .call f es span) span) errs
        (P (.call package name arguments span) errs) := by
      obtain ⟨f, hf, hlength, hrun⟩ | h :=
        bindInvocation_cases (foundOr_calledFunction package name b errs) arguments.length
          (reporting_discardAll arguments) (bindArguments arguments)
          (fun f es => .call f es span) span
      · obtain ⟨es, errs', hes, hQ⟩ := bindArguments_induct nil cons ih hlength errs
        refine ⟨.call f es span, errs', ?_, call hf hlength hQ⟩
        rw [hrun, bind_run_bind, hes]
        rfl
      · exact h.mono fun _ _ => stranded
    rw [bindExpr]
    refine .get ?_
    split
    next target operand htarget hsingle =>
      unfold bindSingle? at hsingle
      split at hsingle
      next stx =>
        cases hsingle
        refine (ih stx List.mem_cons_self errs).bind fun e errs₁ he => ?_
        refine (converted e target true errs₁).bind fun e' errs' hconvert => ?_
        exact .pure (conversion htarget he hconvert.1)
      next => cases hsingle
    next => exact called
  | methodCall receiver name arguments span ihr ih =>
    rw [bindExpr]
    refine (ihr errs).bind fun r errs₁ hr => ?_
    split
    next h =>
      refine (reporting_discardAll arguments).discarded fun errs' hclean => ?_
      refine inherited span fun h' => ⟨receiver, errs, r, ?_⟩
      obtain rfl := hclean h'
      exact ⟨hr, h⟩
    next h =>
      obtain ⟨f, hf, hlength, hrun⟩ | hnone :=
        bindInvocation_cases (foundOr_calledMethod b.Stranded r.type name b errs₁)
          arguments.length (reporting_discardAll arguments) (bindArguments arguments)
          (fun f es => .methodCall f r es span) span
      · obtain ⟨es, errs', hes, hQ⟩ := bindArguments_induct nil cons ih hlength errs₁
        refine ⟨.methodCall f r es span, errs', ?_, methodCall hr h hf hlength hQ⟩
        rw [hrun, bind_run_bind, hes]
        rfl
      · exact hnone.mono fun _ _ => stranded
  | makeArray type length elements span ihl ihe =>
    -- An array that cannot be made was reported, unless its type is unresolved already.
    have unmade {errs₁ errs₂ errs' : Array FileError} {made : Ty}
        (hmade : (bindType type).run (b.reported errs) = (made, b.reported errs₁))
        (hreport : errs₂ = #[] → made = .unresolved ∧ errs₁ = #[])
        (hclean : errs' = #[] → errs₂ = #[]) :
        P (.makeArray type length elements span) errs (.unresolved span) errs' := by
      refine failed fun h => .inr (.inl ⟨type, errs, ?_⟩)
      obtain ⟨rfl, rfl⟩ := hreport (hclean h)
      exact hmade
    have made := (reporting_bindType type).binds b errs
    cases length with
    | some length =>
      cases elements with
      | none =>
        rw [bindExpr]
        refine made.bind fun made errs₁ hmade => ?_
        split
        next element h =>
          refine (ihl length rfl errs₁).bind fun e errs₂ he => ?_
          refine (converted e .int false errs₂).bind fun e' errs' hconvert => ?_
          exact .pure (makeLength hmade.1 h he hconvert.1)
        next =>
          refine (reportMake_binds made _ span).bind fun _ errs₂ hreport => ?_
          exact (reporting_bindExpr length).discarded fun _ => unmade hmade.1 hreport
      | some elements =>
        rw [bindExpr]
        · refine made.bind fun made errs₁ hmade => ?_
          refine (reportMake_binds made _ span).bind fun _ errs₂ hreport => ?_
          simp only [discard?, discardAll?, bind_assoc, pure_bind]
          refine ((reporting_bindExpr length).binds b errs₂).bind fun _ errs₃ hlength => ?_
          refine (reporting_discardAll elements).discarded fun _ hclean => ?_
          exact unmade hmade.1 hreport fun h => eq_empty_of_appended hlength.2 (hclean h)
        all_goals simp
    | none =>
      cases elements with
      | none =>
        rw [bindExpr]
        · refine made.bind fun made errs₁ hmade => ?_
          refine (reportMake_binds made _ span).bind fun _ errs₂ hreport => ?_
          simp only [discard?, discardAll?, pure_bind]
          exact .pure (unmade hmade.1 hreport id)
        all_goals simp
      | some elements =>
        rw [bindExpr]
        refine made.bind fun made errs₁ hmade => ?_
        split
        next element h =>
          refine (bindElements_induct nil cons element (ihe elements rfl) errs₁).bind
            fun es errs' hes => ?_
          exact .pure (makeElements hmade.1 h hes)
        next =>
          refine (reportMake_binds made _ span).bind fun _ errs₂ hreport => ?_
          exact (reporting_discardAll elements).discarded fun _ => unmade hmade.1 hreport
  | index target position span iht ihi =>
    rw [bindExpr]
    refine (iht errs).bind fun t errs₁ ht => ?_
    split
    next element h =>
      refine (ihi errs₁).bind fun e errs₂ he => ?_
      refine (converted e .int false errs₂).bind fun e' errs' hconvert => ?_
      exact .pure (index ht h he hconvert.1)
    next h =>
      refine (reportIndexed_binds t).bind fun _ errs₂ hindexed => ?_
      refine (reporting_bindExpr position).discarded fun errs' hclean => ?_
      refine inherited span fun h => ⟨target, errs, t, ?_⟩
      obtain ⟨htype, rfl⟩ := hindexed (hclean h)
      exact ⟨ht, htype⟩

end Induction

end Parcel
