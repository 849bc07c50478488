import Parcel.Proofs.Binding.Expr

/-!
# Induction along the binding of statements

What a statement of the source can become, and how the counters, the scopes and the errors change
with it, is said once as an induction principle. Nothing else of the binder changes: every loop that
is entered is left again.
-/

namespace Parcel

open Code BindM List

variable {α β : Type} {b : Binder} {loops : List LoopLabels} {action : BindM α} {p : Progress}
  {R : α → Progress → Prop}

/-! ### Progress along a body -/

/-- What changes along a body. -/
structure Progress where
  ids : Ids
  scopes : Scopes
  errors : Array FileError

namespace Progress

def reported (p : Progress) (errors : Array FileError) : Progress :=
  { p with errors }

/-- Progress after so many variables and labels are taken. -/
def taking (p : Progress) (vars labels : Nat) : Progress :=
  { p with ids := p.ids.skip vars labels }

def within (p : Progress) (scopes : Scopes) : Progress :=
  { p with scopes }

/-- Progress inside of a new loop, which has a scope and takes two labels. -/
abbrev looping (p : Progress) : Progress :=
  (p.taking 0 2).within p.scopes.push

/-- The labels that the next loop takes. -/
def loopLabels (p : Progress) : LoopLabels :=
  ⟨p.ids.labelAt 0, p.ids.labelAt 1⟩

section Fields

variable (p : Progress) (errors : Array FileError) (scopes : Scopes)

@[simp] lemma scopes_reported : (p.reported errors).scopes = p.scopes := rfl
@[simp] lemma scopes_within : (p.within scopes).scopes = scopes := rfl
end Fields

end Progress

/-- The binder inside of some loops, as far as it has come. -/
def Binder.along (b : Binder) (loops : List LoopLabels) (p : Progress) : Binder :=
  { b with ids := p.ids, scopes := p.scopes, errors := p.errors, loops }

/-- As far as a binder has come. -/
def Binder.progress (b : Binder) : Progress :=
  ⟨b.ids, b.scopes, b.errors⟩

/-- From the binder inside of some loops, a computation goes on, inside of the same loops. -/
abbrev Binder.Walks (b : Binder) (loops : List LoopLabels) (action : BindM α) (p : Progress)
    (R : α → Progress → Prop) : Prop :=
  Proceeds (b.along loops) action p R

/-- What holds of the run itself. -/
lemma Binder.Walks.run (h : b.Walks loops action p R) :
    (action.run (b.along loops p)).2 =
        b.along loops (action.run (b.along loops p)).2.progress ∧
      R (action.run (b.along loops p)).1 (action.run (b.along loops p)).2.progress := by
  obtain ⟨a, p', hrun, hR⟩ := h
  rw [hrun]
  exact ⟨rfl, hR⟩

/-- A computation that does nothing but report errors goes on so. -/
lemma Reporting.walks (h : Reporting action) (p : Progress) :
    b.Walks loops action p fun a p' => ∃ errs, p' = p.reported errs ∧
      action.run (b.along loops p) = (a, b.along loops (p.reported errs)) ∧
      p.errors.toList <+: errs.toList := by
  obtain ⟨a, errs, hrun, hprefix⟩ := h.run (b.along loops p) p.errors
  exact ⟨a, p.reported errs, hrun, errs, rfl, hrun, hprefix⟩

/-- The errors that it reports come after those there are. -/
lemma Reporting.prefix_of_run (h : Reporting action) {a : α} {errs : Array FileError}
    (hrun : action.run (b.along loops p) = (a, b.along loops (p.reported errs))) :
    p.errors.toList <+: errs.toList := by
  obtain ⟨a', errs', hrun', hprefix⟩ := h.run (b.along loops p) p.errors
  have hsame := (Prod.mk.inj (hrun'.symm.trans hrun)).2
  obtain rfl : errs' = errs := congrArg Build.errors (congrArg Binder.toBuild hsame)
  exact hprefix

/-- A loop that is entered is left again. -/
lemma Binder.Walks.inLoop {labels : LoopLabels} {next : α → BindM β} {S : β → Progress → Prop}
    (h : b.Walks (labels :: loops) action p R)
    (hnext : ∀ a p', R a p' → b.Walks loops (next a) p' S) :
    b.Walks loops (do enterLoop labels; let a ← action; leaveLoop; next a) p S := by
  obtain ⟨a, p₁, hrun, hR⟩ := h
  obtain ⟨c, p', hrun', hS⟩ := hnext a p₁ hR
  refine ⟨c, p', ?_, hS⟩
  have henter : (enterLoop labels).run (b.along loops p) = ((), b.along (labels :: loops) p) := rfl
  have hleave : leaveLoop.run (b.along (labels :: loops) p₁) = ((), b.along loops p₁) := rfl
  rw [bind_run_bind, henter, bind_run_bind, hrun, bind_run_bind, hleave, hrun']

/-- A new loop has a scope of its own and takes its labels. -/
lemma Binder.Walks.looping {next : LoopLabels → BindM α}
    (h : b.Walks loops (next p.loopLabels) p.looping R) :
    b.Walks loops (do enter; let labels ← freshLoopLabels; next labels) p R :=
  .bind_run (p.within p.scopes.push) rfl (.bind_run p.looping rfl h)

lemma declare_run_some {v : Var} {scopes : Scopes} (h : p.scopes.declare? v = some scopes) :
    (declare v).run (b.along loops p) = (true, b.along loops (p.within scopes)) := by
  show declare v (b.along loops p) = _
  have h' : (b.along loops p).scopes.declare? v = some scopes := h
  simp only [declare, modifyGet, MonadStateOf.modifyGet, StateT.modifyGet, h']
  rfl

lemma declare_run_none {v : Var} (h : p.scopes.declare? v = none) :
    (declare v).run (b.along loops p) = (false, b.along loops p) := by
  show declare v (b.along loops p) = _
  have h' : (b.along loops p).scopes.declare? v = none := h
  simp only [declare, modifyGet, MonadStateOf.modifyGet, StateT.modifyGet, h']
  rfl

/-! ### Declarations -/

/-- The type of a declared variable is the one found for it, unless that is `void`, which is
reported. -/
def Settled (found type : Ty) (errs errs' : Array FileError) : Prop :=
  found ≠ .void ∧ type = found ∧ errs' = errs ∨ found = .void ∧ errs' ≠ #[]

/-- How a variable is declared: with neither a type nor an initial value, which is reported, or with
either of them or both. -/
lemma bindVarDecl_cases (decl : Syntax.VarDecl) (b : Binder) (errs : Array FileError) :
    b.Binds (bindVarDecl decl) errs fun bound errs' =>
    (decl.initializer = none ∧ bound.2 = none ∧ errs' ≠ #[]) ∨
    (∃ clause t errs₁, decl.initializer = none ∧
      (bindType clause).run (b.reported errs) = (t, b.reported errs₁) ∧ bound.2 = none ∧
      Settled t bound.1 errs₁ errs') ∨
    (∃ stx e errs₁, decl.initializer = some stx ∧
      (bindExpr stx).run (b.reported errs) = (e, b.reported errs₁) ∧ bound.2 = some e ∧
      Settled e.type bound.1 errs₁ errs') ∨
    (∃ clause t errs₁ stx e errs₂ e' errs₃, decl.initializer = some stx ∧
      (bindType clause).run (b.reported errs) = (t, b.reported errs₁) ∧
      (bindExpr stx).run (b.reported errs₁) = (e, b.reported errs₂) ∧
      (convert e t false).run (b.reported errs₂) = (e', b.reported errs₃) ∧ bound.2 = some e' ∧
      Settled t bound.1 errs₃ errs') := by
  -- the check of the type at the end is the same in all cases
  have settle (found : Ty) (init : Option Expr) (errs : Array FileError) :
      b.Binds (if found = .void then do
          report (.voidVariable decl.name.text) decl.span
          return (.unresolved, init)
        else return (found, init)) errs
        fun bound errs' => bound.2 = init ∧ Settled found bound.1 errs errs' := by
    split
    next hvoid =>
      exact (report_binds _ _).bind fun _ _ hne => .pure ⟨rfl, .inr ⟨hvoid, hne⟩⟩
    next hvoid => exact .pure ⟨rfl, .inl ⟨hvoid, rfl, rfl⟩⟩
  obtain ⟨name, type?, init?, span⟩ := decl
  rcases type? with - | clause <;> rcases init? with - | stx
  · simp only [bindVarDecl, Option.mapM_none, pure_bind]
    refine (report_binds (.untypedVariable name.text) span).bind fun _ errs₁ hne => ?_
    refine (settle .unresolved none errs₁).mono fun bound errs' h =>
      .inl ⟨trivial, h.1, ?_⟩
    rcases h.2 with ⟨-, -, rfl⟩ | ⟨hvoid, -⟩
    · exact hne
    · cases hvoid
  · simp only [bindVarDecl, Option.mapM_none, Option.mapM_some, map_eq_pure_bind, pure_bind,
      bind_assoc]
    refine ((reporting_bindExpr stx).binds b errs).bind fun e errs₁ he => ?_
    refine (settle e.type (some e) errs₁).mono fun bound errs' h => .inr (.inr (.inl ?_))
    exact ⟨stx, e, errs₁, rfl, he.1, h⟩
  · simp only [bindVarDecl, Option.mapM_none, Option.mapM_some, map_eq_pure_bind, pure_bind,
      bind_assoc]
    refine ((reporting_bindType clause).binds b errs).bind fun t errs₁ ht => ?_
    refine (settle t none errs₁).mono fun bound errs' h => .inr (.inl ?_)
    exact ⟨clause, t, errs₁, trivial, ht.1, h⟩
  · simp only [bindVarDecl, Option.mapM_some, map_eq_pure_bind, pure_bind, bind_assoc]
    refine ((reporting_bindType clause).binds b errs).bind fun t errs₁ ht => ?_
    refine ((reporting_bindExpr stx).binds b errs₁).bind fun e errs₂ he => ?_
    refine ((reporting_convert e t false).binds b errs₂).bind fun e' errs₃ he' => ?_
    refine (settle t (some e') errs₃).mono fun bound errs' h => .inr (.inr (.inr ?_))
    exact ⟨clause, t, errs₁, stx, e, errs₂, e', errs₃, rfl, ht.1, he.1, he'.1, h⟩

/-! ### The induction -/

/-- Why a statement is refused: it declares a variable whose name the innermost scope has, returns
what the function does not return, or leaves a loop where there is none around it. -/
def Refused (s : Scopes) (loop : Option LoopLabels) (stx : Syntax.Stmt) (span : Span) : Prop :=
  (∃ decl v, stx = .declaration decl ∧ span = decl.span ∧ v.name = decl.name.text ∧
    s.declare? v = none) ∨ (∃ value, stx = .ret value span) ∨
    loop = none ∧ (stx = .breakLoop span ∨ stx = .continueLoop span)

/-- **Induction along the binding of statements.** A property of the labels of the loops around a
statement, the statement, the progress before it, what it becomes and the progress after it holds
throughout if it passes from the statements inside to each form. -/
theorem bindStmt_induct (b : Binder)
    {P : List LoopLabels → Syntax.Stmt → Progress → Stmt → Progress → Prop}
    {Q : List LoopLabels → List Syntax.Stmt → Progress → List Stmt → Progress → Prop}
    (failed : ∀ {loops stx p n errs span}, Refused p.scopes loops.head? stx span →
      p.errors.toList <+: errs.toList → (errs = #[] → p.errors = #[] ∧ ((∃ value e,
        (bindExpr value).run (b.along loops p) = (e, b.along loops p) ∧ e.type = .unresolved) ∨
          ∃ f ∈ b.function, f.returnType = .unresolved)) →
      P loops stx p (unresolvedStmt span) ((p.taking n 0).reported errs))
    (declare : ∀ {loops decl p type initializer errs scopes},
      (bindVarDecl decl).run (b.along loops p) =
        ((type, initializer), b.along loops (p.reported errs)) →
      p.scopes.declare? (p.ids.localVar decl.name.text type) = some scopes →
      P loops (.declaration decl) p (.declare (p.ids.localVar decl.name.text type) initializer)
        (((p.taking 1 0).within scopes).reported errs))
    (bareReturn : ∀ {loops span p}, (∃ f ∈ b.function, f.returnType = .void) →
      P loops (.ret none span) p (.ret none) p)
    (valueReturn : ∀ {loops value span p e errs},
      (bindExpr value).run (b.along loops p) = (e, b.along loops (p.reported errs)) →
      (∃ f ∈ b.function, e.type = f.returnType) → e.type ≠ .void → e.type ≠ .unresolved →
      P loops (.ret (some value) span) p (.ret (some e)) (p.reported errs))
    (expr : ∀ {loops value p e errs errs'},
      (bindExpr value).run (b.along loops p) = (e, b.along loops (p.reported errs)) →
      errs.toList <+: errs'.toList → P loops (.expr value) p (.expr e) (p.reported errs'))
    (breakLoop : ∀ {labels loops span p},
      P (labels :: loops) (.breakLoop span) p (.goto labels.onBreak) p)
    (continueLoop : ∀ {labels loops span p},
      P (labels :: loops) (.continueLoop span) p (.goto labels.onContinue) p)
    (block : ∀ {loops stmts span p ss p'}, Q loops stmts (p.within p.scopes.push) ss p' →
      P loops (.block stmts span) p (.block ss) (p'.within p'.scopes.pop))
    (ifThen : ∀ {loops condition branch span p c errs s p'},
      (bindAs condition .bool).run (b.along loops p) = (c, b.along loops (p.reported errs)) →
      P loops branch ((p.reported errs).within p.scopes.push) s p' →
      P loops (.ifElse condition branch none span) p (.ifElse c s none)
        (p'.within p'.scopes.pop))
    (ifElse : ∀ {loops condition first second span p c errs s₁ p₁ s₂ p₂},
      (bindAs condition .bool).run (b.along loops p) = (c, b.along loops (p.reported errs)) →
      P loops first ((p.reported errs).within p.scopes.push) s₁ p₁ →
      P loops second (p₁.within p₁.scopes.pop.push) s₂ p₂ →
      P loops (.ifElse condition first (some second) span) p (.ifElse c s₁ (some s₂))
        (p₂.within p₂.scopes.pop))
    (whileLoop : ∀ {loops condition body span p c errs s p'},
      (bindAs condition .bool).run (b.along loops p.looping) =
        (c, b.along loops (p.looping.reported errs)) →
      P (p.loopLabels :: loops) body (p.looping.reported errs) s p' →
      P loops (.whileLoop condition body span) p (.whileLoop c s p.loopLabels)
        (p'.within p'.scopes.pop))
    (forLoop : ∀ {loops initial condition action body span p i p₁ c errs a p₂ s p₃},
      P loops initial p.looping i p₁ →
      (bindAs condition .bool).run (b.along loops p₁) = (c, b.along loops (p₁.reported errs)) →
      P loops action (p₁.reported errs) a p₂ → P (p.loopLabels :: loops) body p₂ s p₃ →
      P loops (.forLoop initial condition action body span) p (.forLoop i c a s p.loopLabels)
        (p₃.within p₃.scopes.pop))
    (fromTo : ∀ {loops} {iterator : Name} {lower upper body span p l errs₁ u errs₂ s p'},
      (bindAs lower .int).run (b.along loops p.looping) =
        (l, b.along loops (p.looping.reported errs₁)) →
      (bindAs upper .int).run (b.along loops (p.looping.reported errs₁)) =
        (u, b.along loops (p.looping.reported errs₂)) →
      P (p.loopLabels :: loops) body (((p.taking 1 2).within
        ⟨[p.ids.localVar iterator.text .int] :: p.scopes.chain⟩).reported errs₂) s p' →
      P loops (.fromTo iterator lower upper body span) p
        (.fromTo (p.ids.localVar iterator.text .int) l u s p.loopLabels)
        (p'.within p'.scopes.pop))
    (loop : ∀ {loops count body span p n errs s p'},
      (bindAs count .int).run (b.along loops p.looping) =
        (n, b.along loops (p.looping.reported errs)) →
      P (p.loopLabels :: loops) body (((p.taking 1 2).within p.scopes.push).reported errs) s p' →
      P loops (.loop count body span) p (.loop (p.ids.localVar iteratorName .int) n s p.loopLabels)
        (p'.within p'.scopes.pop))
    (nil : ∀ {loops p}, Q loops [] p [] p)
    (cons : ∀ {loops stx stxs p s p₁ ss p₂}, P loops stx p s p₁ → Q loops stxs p₁ ss p₂ →
      Q loops (stx :: stxs) p (s :: ss) p₂)
    (stx : Syntax.Stmt) (loops : List LoopLabels) (p : Progress) :
    b.Walks loops (bindStmt stx) p (P loops stx p) := by
  have refuse {loops : List LoopLabels} {stx : Syntax.Stmt} {p : Progress} (vars : Nat)
      {errs : Array FileError} {cause : BindCause} {reported span : Span}
      (hwhy : Refused p.scopes loops.head? stx span) (herrs : p.errors.toList <+: errs.toList) :
      b.Walks loops (unresolvedStmtAfter cause reported span) ((p.taking vars 0).reported errs)
        (P loops stx p) :=
    ⟨_, _, rfl, failed hwhy (herrs.trans (prefix_push _ _)) fun h => absurd h Array.push_ne_empty⟩
  induction stx using Syntax.Stmt.structural generalizing loops p with
  | declaration decl =>
    rw [bindStmt, bindDeclaration]
    refine ((reporting_bindVarDecl decl).walks p).bind fun bound p₁ h => ?_
    obtain ⟨type, initializer⟩ := bound
    obtain ⟨errs, rfl, hrun, hprefix⟩ := h
    refine .bind_run ((p.taking 1 0).reported errs) rfl ?_
    cases hscopes : p.scopes.declare? (p.ids.localVar decl.name.text type) with
    | some =>
      exact .bind_run _ (declare_run_some hscopes) (.pure (declare hrun hscopes))
    | none =>
      refine .bind_run _ (declare_run_none hscopes) ?_
      exact refuse 1 (.inl ⟨decl, _, rfl, rfl, rfl, hscopes⟩) hprefix
  | ret value =>
    rw [bindStmt, bindReturn]
    refine .get ?_
    cases hf : (b.along loops p).function with
    | none => exact refuse 0 (.inr (.inl ⟨value, rfl⟩)) prefix_rfl
    | some f =>
      cases value with
      | none =>
        dsimp only
        split
        next h => exact .pure (bareReturn ⟨f, hf, h⟩)
        next => exact refuse 0 (.inr (.inl ⟨none, rfl⟩)) prefix_rfl
      | some value =>
        refine ((reporting_bindExpr value).walks p).bind fun e p₁ h => ?_
        obtain ⟨errs, rfl, hrun, hprefix⟩ := h
        unfold bindReturnValue
        split
        next => exact refuse 0 (.inr (.inl ⟨value, rfl⟩)) hprefix
        next hvoid =>
          split
          next h =>
            refine .pure (failed (n := 0) (.inr (.inl ⟨value, rfl⟩)) hprefix fun hclean => ?_)
            subst hclean
            have hbefore := eq_empty_of_appended hprefix rfl
            have hsame : p.reported #[] = p := hbefore ▸ rfl
            rw [hsame] at hrun
            exact ⟨hbefore, h.imp (fun htype => ⟨value, e, hrun, htype⟩) fun htype => ⟨f, hf, htype⟩⟩
          next h =>
            obtain ⟨htype, -⟩ := not_or.mp h
            split
            next heq =>
              exact .pure (valueReturn hrun ⟨f, hf, heq⟩ (heq ▸ hvoid) htype)
            next => exact refuse 0 (.inr (.inl ⟨value, rfl⟩)) hprefix
  | whileLoop condition body span ih =>
    rw [bindStmt]
    refine .looping ?_
    refine ((reporting_bindAs condition .bool).walks _).bind fun c p₁ h => ?_
    obtain ⟨errs, rfl, hrun, -⟩ := h
    refine Binder.Walks.inLoop (ih _ _) fun s p' hs => ?_
    exact .bind_run _ rfl (.pure (whileLoop hrun hs))
  | forLoop initial condition action body span ihi iha ihb =>
    rw [bindStmt]
    refine .looping ?_
    refine (ihi _ _).bind fun i p₁ hi => ?_
    refine ((reporting_bindAs condition .bool).walks _).bind fun c p₂ h => ?_
    obtain ⟨errs, rfl, hrun, -⟩ := h
    refine (iha _ _).bind fun a p₂ ha => ?_
    refine Binder.Walks.inLoop (ihb _ _) fun s p₃ hs => ?_
    exact .bind_run _ rfl (.pure (forLoop hi hrun ha hs))
  | fromTo iterator lower upper body span ih =>
    rw [bindStmt]
    refine .looping ?_
    refine ((reporting_bindAs lower .int).walks _).bind fun l p₁ h => ?_
    obtain ⟨errs₁, rfl, hl, -⟩ := h
    refine ((reporting_bindAs upper .int).walks _).bind fun u p₂ h => ?_
    obtain ⟨errs₂, rfl, hu, -⟩ := h
    refine .bind_run (((p.taking 1 2).within p.scopes.push).reported errs₂) rfl ?_
    refine .bind_run _ (declare_run_some rfl) ?_
    refine Binder.Walks.inLoop (ih _ _) fun s p' hs => ?_
    exact .bind_run _ rfl (.pure (fromTo hl hu hs))
  | loop count body span ih =>
    rw [bindStmt]
    refine .looping ?_
    refine ((reporting_bindAs count .int).walks _).bind fun n p₁ h => ?_
    obtain ⟨errs, rfl, hn, -⟩ := h
    refine .bind_run (((p.taking 1 2).within p.scopes.push).reported errs) rfl ?_
    refine Binder.Walks.inLoop (ih _ _) fun s p' hs => ?_
    exact .bind_run _ rfl (.pure (loop hn hs))
  | breakLoop =>
    rw [bindStmt]
    cases loops with
    | nil => exact refuse 0 (.inr (.inr ⟨rfl, .inl rfl⟩)) prefix_rfl
    | cons => exact ⟨_, p, rfl, breakLoop⟩
  | continueLoop =>
    rw [bindStmt]
    cases loops with
    | nil => exact refuse 0 (.inr (.inr ⟨rfl, .inr rfl⟩)) prefix_rfl
    | cons => exact ⟨_, p, rfl, continueLoop⟩
  | block stmts span ih =>
    have all (p : Progress) : b.Walks loops (bindStmts stmts) p (Q loops stmts p) := by
      induction stmts generalizing p with
      | nil =>
        rw [bindStmts]
        exact .pure nil
      | cons stmt stmts ihs =>
        rw [bindStmts]
        refine (ih stmt mem_cons_self loops p).bind fun s p₁ hs => ?_
        refine (ihs (fun s hs => ih s (mem_cons_of_mem _ hs)) p₁).bind fun ss p₂ hss => ?_
        exact .pure (cons hs hss)
    rw [bindStmt]
    refine .bind_run (p.within p.scopes.push) rfl ?_
    refine (all _).bind fun ss p' hss => ?_
    exact .bind_run _ rfl (.pure (block hss))
  | expr value =>
    rw [bindStmt, bindExprStmt]
    refine ((reporting_bindExpr value).walks p).bind fun e p₁ h => ?_
    obtain ⟨errs, rfl, hrun, -⟩ := h
    split
    · exact .pure (expr hrun prefix_rfl)
    · exact .bind_run _ rfl (.pure (expr hrun (prefix_push _ _)))
  | ifElse condition thenBranch elseBranch span iht ihe =>
    rw [bindStmt]
    refine ((reporting_bindAs condition .bool).walks p).bind fun c p₁ h => ?_
    obtain ⟨errs, rfl, hrun, -⟩ := h
    refine .bind_run ((p.reported errs).within p.scopes.push) rfl ?_
    refine (iht _ _).bind fun s₁ p₁ hs₁ => ?_
    refine .bind_run (p₁.within p₁.scopes.pop) rfl ?_
    cases elseBranch with
    | none =>
      rw [bindBranch]
      exact .pure (ifThen hrun hs₁)
    | some elseBranch =>
      rw [bindBranch]
      simp only [bind_assoc, pure_bind]
      refine .bind_run (p₁.within p₁.scopes.pop.push) rfl ?_
      refine (ihe elseBranch rfl _ _).bind fun s₂ p₂ hs₂ => ?_
      exact .bind_run _ rfl (.pure (ifElse hrun hs₁ hs₂))

/-- Binding a statement adds errors after those there are. -/
lemma prefix_bindStmt (b : Binder) (stx : Syntax.Stmt) (loops : List LoopLabels) (p : Progress) :
    b.Walks loops (bindStmt stx) p fun _ p' => p.errors.toList <+: p'.errors.toList := by
  apply bindStmt_induct b (P := fun _ _ p _ p' => p.errors.toList <+: p'.errors.toList)
    (Q := fun _ _ p _ p' => p.errors.toList <+: p'.errors.toList)
  case failed => exact fun _ hprefix _ => hprefix
  case declare => exact fun h _ => (reporting_bindVarDecl _).prefix_of_run h
  case bareReturn => exact fun _ => prefix_rfl
  case valueReturn => exact fun h _ _ _ => (reporting_bindExpr _).prefix_of_run h
  case expr => exact fun h hprefix => ((reporting_bindExpr _).prefix_of_run h).trans hprefix
  case breakLoop | continueLoop | nil => exact prefix_rfl
  case block => exact id
  case ifThen => exact fun hc h => ((reporting_bindAs _ _).prefix_of_run hc).trans h
  case ifElse =>
    exact fun hc h₁ h₂ => ((reporting_bindAs _ _).prefix_of_run hc).trans (h₁.trans h₂)
  case whileLoop | loop =>
    intro _ _ _ _ _ _ _ _ _ hc h
    have hfirst := (reporting_bindAs _ _).prefix_of_run hc
    exact hfirst.trans h
  case forLoop =>
    intro _ _ _ _ _ _ _ _ _ _ _ _ _ _ _ hi hc ha hs
    have hcondition := (reporting_bindAs _ _).prefix_of_run hc
    exact hi.trans (hcondition.trans (ha.trans hs))
  case fromTo =>
    intro _ _ _ _ _ _ _ _ _ _ _ _ _ hl hu h
    have hlower := (reporting_bindAs _ _).prefix_of_run hl
    have hupper := (reporting_bindAs _ _).prefix_of_run hu
    exact hlower.trans (hupper.trans h)
  case cons => exact fun h₁ h₂ => h₁.trans h₂

end Parcel
