import Parcel.Proofs.Binding.Program

/-!
# Bodies under a renaming

A body that is bound from other counters, where the symbols have other ids, becomes the same body
with other ids. How many ids it takes does not depend on where the counters stand; so it is enough
that the renaming takes those that the one body takes to those that the other takes.
-/

namespace Parcel

open BindM List

/-! ### Counters -/

/-- The counters after so many ids of each kind are taken. -/
instance : Add Ids :=
  ⟨fun ids n => ⟨ids.nextVar + n.nextVar, ids.nextFunction + n.nextFunction,
    ids.nextLabel + n.nextLabel⟩⟩

namespace Ids

variable (ids n : Ids)

@[simp] lemma nextVar_add : (ids + n).nextVar = ids.nextVar + n.nextVar := rfl
@[simp] lemma nextFunction_add : (ids + n).nextFunction = ids.nextFunction + n.nextFunction := rfl
@[simp] lemma nextLabel_add : (ids + n).nextLabel = ids.nextLabel + n.nextLabel := rfl

protected lemma add_assoc (m : Ids) : ids + n + m = ids + (n + m) := by
  show Ids.mk _ _ _ = Ids.mk _ _ _
  simp only [nextVar_add, nextFunction_add, nextLabel_add, Nat.add_assoc]

end Ids

/-- The next so many ids after the counters go to the next so many after other counters, in
order. -/
structure Renaming.Aligns (ρ : Renaming) (n ids ids' : Ids) : Prop where
  var : ∀ k < n.nextVar, ρ.var (ids.nextVar + k) = ids'.nextVar + k
  function : ∀ k < n.nextFunction, ρ.function (ids.nextFunction + k) = ids'.nextFunction + k
  label : ∀ k < n.nextLabel, ρ.label (ids.nextLabel + k) = ids'.nextLabel + k

namespace Renaming.Aligns

variable {ρ : Renaming} {n m ids ids' : Ids}

lemma left (h : ρ.Aligns (n + m) ids ids') : ρ.Aligns n ids ids' where
  var k hk := h.var k (Nat.lt_of_lt_of_le hk (Nat.le_add_right _ _))
  function k hk := h.function k (Nat.lt_of_lt_of_le hk (Nat.le_add_right _ _))
  label k hk := h.label k (Nat.lt_of_lt_of_le hk (Nat.le_add_right _ _))

lemma right (h : ρ.Aligns (n + m) ids ids') : ρ.Aligns m (ids + n) (ids' + n) where
  var k hk := by
    simp only [Ids.nextVar_add, Nat.add_assoc]
    exact h.var _ (Nat.add_lt_add_left hk _)
  function k hk := by
    simp only [Ids.nextFunction_add, Nat.add_assoc]
    exact h.function _ (Nat.add_lt_add_left hk _)
  label k hk := by
    simp only [Ids.nextLabel_add, Nat.add_assoc]
    exact h.label _ (Nat.add_lt_add_left hk _)

end Renaming.Aligns

/-! ### Computations in parallel -/

/-- The binder after so many ids are taken and more errors are reported, in other scopes and
loops. -/
def Binder.moved (b : Binder) (n : Ids) (scopes : Scopes) (loops : List Code.LoopLabels)
    (new : List BindError) : Binder :=
  Binder.adding { b with ids := b.ids + n, scopes, loops } new

@[simp] lemma Binder.moved_moved (b : Binder) (n m : Ids) (s s' : Scopes)
    (l l' : List Code.LoopLabels) (new new' : List BindError) :
    (b.moved n s l new).moved m s' l' new' = b.moved (n + m) s' l' (new ++ new') := by
  show _ = adding { b with ids := b.ids + (n + m), scopes := s', loops := l' } (new ++ new')
  rw [← Ids.add_assoc]
  exact adding_adding { b with ids := b.ids + n + m, scopes := s', loops := l' } new new'

/-- From matching binders, both computations take the same number of ids, none of them for a
function, and report the same errors. If the renaming takes those ids of the one to those of the
other, the second does under new ids what the first does. -/
def Parallel {α β : Type} (ρ : Renaming) (f : α → β) (action : BindM α) (action' : BindM β) :
    Prop :=
  ∀ b b', b.Matches ρ b' → ∃ n scopes loops new a, n.nextFunction = 0 ∧
    action.run b = (a, b.moved n scopes loops new) ∧ (ρ.Aligns n b.ids b'.ids →
      action'.run b' = (f a, b'.moved n (scopes.rename ρ) (loops.map (·.rename ρ)) new))

section Rules

variable {ρ : Renaming}

variable {α β : Type} {f : α → β} {action : BindM α} {action' : BindM β}

lemma Binder.Matches.moved {b b' : Binder} (h : b.Matches ρ b') (n : Ids) (s : Scopes)
    (l : List Code.LoopLabels) (new : List BindError) : (b.moved n s l new).Matches ρ
      (b'.moved n (s.rename ρ) (l.map (·.rename ρ)) new) :=
  ⟨h.catalog, h.package, h.current, h.function, rfl, rfl⟩

lemma Parallel.bind {γ δ : Type} {g : γ → δ} {next : α → BindM γ} {next' : β → BindM δ}
    (h : Parallel ρ f action action') (hnext : ∀ a, Parallel ρ g (next a) (next' (f a))) :
    Parallel ρ g (action >>= next) (action' >>= next') := by
  intro b b' hb
  obtain ⟨n, s, l, new, a, hn, hrun, hrun'⟩ := h b b' hb
  obtain ⟨m, s', l', new', c, hm, hmore, hmore'⟩ := hnext a _ _ (hb.moved n s l new)
  refine ⟨n + m, s', l', new ++ new', c, ?_, ?_, fun haligns => ?_⟩
  · rw [Ids.nextFunction_add, hn, hm]
  · rw [bind_run_bind, hrun, hmore, Binder.moved_moved]
  · rw [bind_run_bind, hrun' haligns.left, hmore' haligns.right, Binder.moved_moved]

/-- Computations that only report errors. -/
lemma Mirrors.parallel (h : Mirrors ρ f action action') : Parallel ρ f action action' := by
  intro b b' hb
  obtain ⟨a, new, hrun, hrun'⟩ := h b b' hb
  refine ⟨{}, b.scopes, b.loops, new, a, rfl, hrun, fun _ => ?_⟩
  rw [← hb.scopes, ← hb.loops]
  exact hrun'

lemma parallel_pure (f : α → β) (a : α) : Parallel ρ f (pure a) (pure (f a)) :=
  (mirrors_pure f a).parallel

/-- Both may look at their states, which match. -/
lemma parallel_get_bind {next : Binder → BindM α} {next' : Binder → BindM β}
    (h : ∀ b b', b.Matches ρ b' → Parallel ρ f (next b) (next' b')) :
    Parallel ρ f (get >>= next) (get >>= next') :=
  fun b b' hb => h b b' hb b b' hb

/-- Computations that report nothing. -/
lemma parallel_of_run {n : Ids} (hn : n.nextFunction = 0) (scopes : Binder → Scopes)
    (loops : Binder → List Code.LoopLabels) (result : Binder → α)
    (h : ∀ b b', b.Matches ρ b' →
      action.run b = (result b, { b with
        ids := b.ids + n, scopes := scopes b, loops := loops b }) ∧
      (ρ.Aligns n b.ids b'.ids → action'.run b' = (f (result b), { b' with
        ids := b'.ids + n
        scopes := (scopes b).rename ρ
        loops := (loops b).map (·.rename ρ) }))) :
    Parallel ρ f action action' := by
  intro b b' hb
  obtain ⟨hrun, hrun'⟩ := h b b' hb
  refine ⟨n, scopes b, loops b, [], result b, hn, ?_, fun haligns => ?_⟩
  · rw [hrun, Binder.moved, Binder.adding_nil]
  · rw [hrun' haligns, Binder.moved, Binder.adding_nil]

lemma parallel_enter : Parallel ρ id enter enter := by
  refine parallel_of_run (n := {}) rfl (·.scopes.push) (·.loops) (fun _ => ()) fun b b' hb =>
    ⟨rfl, fun _ => ?_⟩
  show ((), { b' with scopes := b'.scopes.push }) = _
  rw [hb.scopes, ← hb.loops]
  rfl

lemma Scopes.pop_rename (s : Scopes) : (s.rename ρ).pop = s.pop.rename ρ := by
  obtain ⟨chain⟩ := s
  match chain with
  | [] => rfl
  | [scope] => rfl
  | inner :: outer :: rest => rfl

lemma parallel_leave : Parallel ρ id leave leave := by
  refine parallel_of_run (n := {}) rfl (·.scopes.pop) (·.loops) (fun _ => ()) fun b b' hb =>
    ⟨rfl, fun _ => ?_⟩
  show ((), { b' with scopes := b'.scopes.pop }) = _
  rw [hb.scopes, Scopes.pop_rename, ← hb.loops]
  rfl

lemma parallel_enterLoop (labels : Code.LoopLabels) :
    Parallel ρ id (enterLoop labels) (enterLoop (labels.rename ρ)) := by
  refine parallel_of_run (n := {}) rfl (·.scopes) (labels :: ·.loops) (fun _ => ()) fun b b' hb =>
    ⟨rfl, fun _ => ?_⟩
  show ((), { b' with loops := labels.rename ρ :: b'.loops }) = _
  rw [hb.loops, ← hb.scopes]
  rfl

lemma parallel_leaveLoop : Parallel ρ id leaveLoop leaveLoop := by
  refine parallel_of_run (n := {}) rfl (·.scopes) (·.loops.tail) (fun _ => ()) fun b b' hb =>
    ⟨rfl, fun _ => ?_⟩
  show ((), { b' with loops := b'.loops.tail }) = _
  rw [hb.loops, map_tail, ← hb.scopes]
  rfl

lemma Scopes.declare?_rename (s : Scopes) (v : Var) :
    (s.rename ρ).declare? (v.rename ρ) = (s.declare? v).map (·.rename ρ) := by
  obtain ⟨chain⟩ := s
  cases chain with
  | nil => rfl
  | cons inner =>
    have hany : (inner.map (·.rename ρ)).any (·.name = (v.rename ρ).name) =
        inner.any (·.name = v.name) := any_map
    simp only [Scopes.rename, Scopes.declare?, map_cons, hany]
    split
    · rfl
    · simp only [Option.map_some, map_cons, map_append, map_nil]

lemma declare_run (v : Var) (b : Binder) :
    (declare v).run b = ((b.scopes.declare? v).isSome,
      { b with scopes := (b.scopes.declare? v).getD b.scopes }) := by
  cases h : b.scopes.declare? v with
  | some => exact @declare_run_some b b.loops b.progress _ _ h
  | none => exact @declare_run_none b b.loops b.progress _ h

lemma parallel_declare (v : Var) : Parallel ρ id (declare v) (declare (v.rename ρ)) := by
  refine parallel_of_run (n := {}) rfl (fun b => (b.scopes.declare? v).getD b.scopes) (·.loops)
    (fun b => (b.scopes.declare? v).isSome) fun b b' hb => ⟨declare_run v b, fun _ => ?_⟩
  have hscopes := b.scopes.declare?_rename (ρ := ρ) v
  rw [declare_run, hb.scopes, hscopes, ← hb.loops]
  cases b.scopes.declare? v with
  | some | none => rfl

lemma parallel_freshVar (name : String) (type : Ty) (kind : VarKind) :
    Parallel ρ (·.rename ρ) (freshVar name type kind) (freshVar name type kind) := by
  refine parallel_of_run (n := ⟨1, 0, 0⟩) rfl (·.scopes) (·.loops)
    (fun b => ⟨⟨b.ids.nextVar⟩, name, type, kind⟩) fun b b' hb => ⟨rfl, fun h => ?_⟩
  have hvar : ρ.var b.ids.nextVar = b'.ids.nextVar := h.var 0 Nat.one_pos
  have hfresh : (Var.mk ⟨b.ids.nextVar⟩ name type kind).rename ρ =
      ⟨⟨b'.ids.nextVar⟩, name, type, kind⟩ := by
    rw [← hvar]
    rfl
  rw [← hb.scopes, ← hb.loops, hfresh]
  rfl

lemma parallel_freshLoopLabels :
    Parallel ρ (·.rename ρ) freshLoopLabels freshLoopLabels := by
  refine parallel_of_run (n := ⟨0, 0, 2⟩) rfl (·.scopes) (·.loops)
    (fun b => b.progress.loopLabels) fun b b' hb => ⟨rfl, fun h => ?_⟩
  have hbreak : ρ.label b.ids.nextLabel = b'.ids.nextLabel := h.label 0 Nat.two_pos
  have hcontinue : ρ.label (b.ids.nextLabel + 1) = b'.ids.nextLabel + 1 := h.label 1 Nat.one_lt_two
  have hlabels : b.progress.loopLabels.rename ρ =
      ⟨⟨b'.ids.nextLabel⟩, ⟨b'.ids.nextLabel + 1⟩⟩ := by
    rw [Code.LoopLabels.rename, ← hcontinue, ← hbreak]
    rfl
  rw [← hb.scopes, ← hb.loops, hlabels]
  rfl

end Rules

/-! ### Statements -/

section Statements

variable {ρ : Renaming}

lemma parallel_stmt (stmt : Code.Stmt) :
    Parallel ρ (·.rename ρ) (pure stmt) (pure (stmt.rename ρ)) :=
  parallel_pure _ stmt

/-- A statement in place of one that cannot be resolved. -/
lemma parallel_unresolved (cause : BindCause) (reported span : Span) :
    Parallel ρ (·.rename ρ) (unresolvedStmtAfter cause reported span)
      (unresolvedStmtAfter cause reported span) :=
  (mirrors_report cause reported).parallel.bind fun _ => parallel_stmt (unresolvedStmt span)

lemma parallel_bindDeclaration (decl : Syntax.VarDecl) :
    Parallel ρ (·.rename ρ) (bindDeclaration decl) (bindDeclaration decl) := by
  refine (mirrors_bindVarDecl decl).parallel.bind fun bound => ?_
  refine (parallel_freshVar decl.name.text bound.1 .local).bind fun v => ?_
  refine (parallel_declare v).bind fun declared => ?_
  cases declared with
  | true => exact parallel_stmt (.declare v bound.2)
  | false => exact parallel_unresolved _ _ _

lemma parallel_bindReturnValue (f : FunctionSymbol) (value : Code.Expr) (valueSpan span : Span) :
    Parallel ρ (·.rename ρ) (bindReturnValue f value valueSpan span)
      (bindReturnValue (f.rename ρ) (value.rename ρ) valueSpan span) := by
  simp only [bindReturnValue, FunctionSymbol.returnType_rename, FunctionSymbol.name_rename,
    Code.Expr.type_rename]
  split
  · exact parallel_unresolved _ _ _
  · split
    · exact parallel_stmt (unresolvedStmt span)
    · split
      · exact parallel_stmt (.ret (some value))
      · exact parallel_unresolved _ _ _

lemma parallel_bindReturn (value : Option Syntax.Expr) (span : Span) :
    Parallel ρ (·.rename ρ) (bindReturn value span) (bindReturn value span) := by
  refine parallel_get_bind fun b b' hb => ?_
  rw [hb.function]
  cases b.function with
  | none => exact parallel_unresolved _ _ _
  | some f =>
    cases value with
    | none =>
      show Parallel ρ _ (if f.returnType = .void then pure (.ret none)
        else unresolvedStmtAfter (.missingReturnValue f.name f.returnType) span span)
        (if f.returnType = .void then pure (.ret none)
        else unresolvedStmtAfter (.missingReturnValue f.name f.returnType) span span)
      split
      · exact parallel_stmt (.ret none)
      · exact parallel_unresolved _ _ _
    | some value =>
      exact (mirrors_bindExpr value).parallel.bind fun e => parallel_bindReturnValue f e _ span

lemma parallel_bindJump {label : Code.LoopLabels → Label}
    (hlabel : ∀ labels : Code.LoopLabels, label (labels.rename ρ) = (label labels).rename ρ)
    (cause : BindCause) (span : Span) :
    Parallel ρ (·.rename ρ) (bindJump label cause span) (bindJump label cause span) := by
  refine parallel_get_bind fun b b' hb => ?_
  rw [hb.loops]
  cases b.loops with
  | nil => exact parallel_unresolved _ _ _
  | cons labels =>
    simp only [map_cons, hlabel]
    exact parallel_stmt (.goto (label labels))

lemma isStatement_rename (e : Code.Expr) : isStatement (e.rename ρ) = isStatement e := by
  cases e <;> rfl

lemma parallel_bindExprStmt (value : Syntax.Expr) :
    Parallel ρ (·.rename ρ) (bindExprStmt value) (bindExprStmt value) := by
  refine (mirrors_bindExpr value).parallel.bind fun e => ?_
  rw [isStatement_rename]
  split
  · exact parallel_stmt (.expr e)
  · exact (mirrors_report _ _).parallel.bind fun _ => parallel_stmt (.expr e)

/-- The body of a loop, between entering the loop and leaving it and its scope. -/
lemma Parallel.inLoop {body : BindM Code.Stmt} (h : Parallel ρ (·.rename ρ) body body)
    (labels : Code.LoopLabels) {make make' : Code.Stmt → Code.Stmt}
    (hmake : ∀ stmt, make' (stmt.rename ρ) = (make stmt).rename ρ) :
    Parallel ρ (·.rename ρ)
      (do enterLoop labels; let stmt ← body; leaveLoop; leave; return make stmt)
      (do enterLoop (labels.rename ρ); let stmt ← body; leaveLoop; leave; return make' stmt) := by
  refine (parallel_enterLoop labels).bind fun _ => h.bind fun stmt =>
    parallel_leaveLoop.bind fun _ => parallel_leave.bind fun _ => ?_
  rw [hmake]
  exact parallel_stmt (make stmt)

/-- **Statements are bound in parallel.** -/
theorem parallel_bindStmt (stx : Syntax.Stmt) :
    Parallel ρ (·.rename ρ) (bindStmt stx) (bindStmt stx) := by
  induction stx using Syntax.Stmt.structural with
  | declaration decl =>
    simp only [bindStmt]
    exact parallel_bindDeclaration decl
  | ret value span =>
    simp only [bindStmt]
    exact parallel_bindReturn value span
  | whileLoop condition body span ih =>
    simp only [bindStmt]
    exact parallel_enter.bind fun _ => parallel_freshLoopLabels.bind fun labels =>
      (mirrors_bindAs condition .bool).parallel.bind fun condition =>
        ih.inLoop labels fun _ => rfl
  | forLoop initial condition action body span ihi iha ihb =>
    simp only [bindStmt]
    exact parallel_enter.bind fun _ => parallel_freshLoopLabels.bind fun labels =>
      ihi.bind fun initial => (mirrors_bindAs condition .bool).parallel.bind fun condition =>
        iha.bind fun action => ihb.inLoop labels fun _ => rfl
  | fromTo iterator lower upper body span ih =>
    simp only [bindStmt]
    exact parallel_enter.bind fun _ => parallel_freshLoopLabels.bind fun labels =>
      (mirrors_bindAs lower .int).parallel.bind fun lower =>
        (mirrors_bindAs upper .int).parallel.bind fun upper =>
          (parallel_freshVar _ _ _).bind fun v => (parallel_declare v).bind fun _ =>
            ih.inLoop labels fun _ => rfl
  | loop count body span ih =>
    simp only [bindStmt]
    exact parallel_enter.bind fun _ => parallel_freshLoopLabels.bind fun labels =>
      (mirrors_bindAs count .int).parallel.bind fun count =>
        (parallel_freshVar _ _ _).bind fun v => ih.inLoop labels fun _ => rfl
  | breakLoop span | continueLoop span =>
    simp only [bindStmt]
    exact parallel_bindJump (fun _ => rfl) _ span
  | block stmts span ih =>
    have all : Parallel ρ (Code.renameAll ρ) (bindStmts stmts) (bindStmts stmts) := by
      induction stmts with
      | nil =>
        simp only [bindStmts]
        exact parallel_pure _ []
      | cons stmt stmts ihs =>
        simp only [bindStmts]
        exact (ih stmt mem_cons_self).bind fun stmt =>
          (ihs fun s hs => ih s (mem_cons_of_mem _ hs)).bind fun stmts =>
            parallel_pure _ (stmt :: stmts)
    simp only [bindStmt]
    exact parallel_enter.bind fun _ => all.bind fun stmts => parallel_leave.bind fun _ =>
      parallel_stmt (.block stmts)
  | expr value =>
    simp only [bindStmt]
    exact parallel_bindExprStmt value
  | ifElse condition thenBranch elseBranch span iht ihe =>
    simp only [bindStmt]
    refine (mirrors_bindAs condition .bool).parallel.bind fun condition =>
      parallel_enter.bind fun _ => iht.bind fun thenBranch => parallel_leave.bind fun _ => ?_
    cases elseBranch with
    | none =>
      simp only [bindBranch]
      exact parallel_stmt (.ifElse condition thenBranch none)
    | some elseBranch =>
      simp only [bindBranch, bind_assoc, pure_bind]
      exact parallel_enter.bind fun _ => (ihe elseBranch rfl).bind fun elseBranch =>
        parallel_leave.bind fun _ =>
          parallel_stmt (.ifElse condition thenBranch (some elseBranch))

/-! ### Bodies -/

lemma parallel_declareParam (v : Var) (param : Syntax.Param) :
    Parallel ρ id (declareParam v param) (declareParam (v.rename ρ) param) := by
  refine (parallel_declare v).bind fun declared => ?_
  cases declared with
  | true => exact parallel_pure _ ()
  | false => exact (mirrors_report _ _).parallel

lemma parallel_declareParams {declare : Var × Syntax.Param → BindM Unit}
    (h : ∀ v param, declare (v, param) = declareParam v param) (vars : List Var)
    (params : List Syntax.Param) :
    Parallel ρ id ((vars.zip params).forM declare)
      (((vars.map (·.rename ρ)).zip params).forM declare) := by
  induction vars generalizing params with
  | nil => exact parallel_pure _ ()
  | cons v vars ih =>
    cases params with
    | nil => exact parallel_pure _ ()
    | cons param params =>
      show Parallel ρ id (declare (v, param) >>= fun _ => (vars.zip params).forM declare)
        (declare (v.rename ρ, param) >>= fun _ =>
          ((vars.map (·.rename ρ)).zip params).forM declare)
      rw [h, h]
      exact (parallel_declareParam v param).bind fun _ => ih params

/-- **Bodies are bound in parallel.** -/
theorem parallel_bindBody (f : FunctionSymbol) (decl : Syntax.FunctionDecl) :
    Parallel ρ (·.rename ρ) (bindBody f decl) (bindBody (f.rename ρ) decl) := by
  unfold bindBody
  exact parallel_enter.bind fun _ => (parallel_declareParams (fun _ _ => rfl) _ _).bind fun _ =>
    (parallel_bindStmt decl.body).bind fun body => parallel_leave.bind fun _ => parallel_stmt body

end Statements

/-! ### Binders that do the same -/

/-- From matching binders with the same ids and counters, a computation does the same. -/
lemma Parallel.agree {α : Type} {f : α → α} {action : BindM α} (h : Parallel .refl f action action)
    (hf : ∀ a, f a = a) {b b' : Binder} (hb : b.Matches .refl b') (hids : b'.ids = b.ids) :
    ∃ n scopes loops new a, action.run b = (a, b.moved n scopes loops new) ∧
      action.run b' = (a, b'.moved n scopes loops new) := by
  obtain ⟨n, scopes, loops, new, a, -, hrun, hrun'⟩ := h b b' hb
  refine ⟨n, scopes, loops, new, a, hrun, ?_⟩
  have hloops : loops.map (·.rename .refl) = loops := map_id' _
  rw [hrun' (hids ▸ ⟨fun _ _ => rfl, fun _ _ => rfl, fun _ _ => rfl⟩), hf, Scopes.rename_refl,
    hloops]

lemma Catalog.matches_refl (c : Catalog) : c.Matches .refl c where
  type? _ := rfl
  similarType _ := rfl
  container? type := by simp only [Container.rename_refl, Option.map_id']
  functions package := by simp only [FunctionTable.rename_refl]

end Parcel
