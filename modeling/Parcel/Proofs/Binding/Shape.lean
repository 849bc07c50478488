import Parcel.Proofs.Binding.Stmt

/-!
# The shape of bound bodies

Whether or not errors are reported, a bound body takes its labels and variables from the counters,
each at most once, and its parts are made by binding.
-/

namespace Parcel

open Code BindM List

variable {b b' : Binder} {decl : Syntax.VarDecl}

/-! ### Labels and variables are taken from the counters -/

/-- Labels, variables and functions were taken between two states of the counters, each at most
once. -/
structure Ids.Taken (ids ids' : Ids) (labels : List Label) (vars : List VarId)
    (functions : List FunctionId := []) : Prop where
  reach : ids.Reach ids'
  labels : ∀ label, labels.count label ≤ within ids.nextLabel ids'.nextLabel label.index
  vars : ∀ id, vars.count id ≤ within ids.nextVar ids'.nextVar id.index
  functions : ∀ id,
    functions.count id ≤ within ids.nextFunction ids'.nextFunction id.index

namespace Ids

variable {ids ids' ids₁ ids₂ ids₃ : Ids} {labels : List Label} {vars : List VarId}
  {functions : List FunctionId}

lemma taken_nil (h : ids.Reach ids') : ids.Taken ids' [] [] where
  reach := h
  labels _ := Nat.zero_le _
  vars _ := Nat.zero_le _
  functions _ := Nat.zero_le _

lemma taken_skip (ids : Ids) (vars labels : Nat) : ids.Taken (ids.skip vars labels) [] [] :=
  taken_nil (ids.reach_skip vars labels)

lemma Taken.trans {labels₁ labels₂ : List Label} {vars₁ vars₂ : List VarId}
    {functions₁ functions₂ : List FunctionId} (h₁ : ids₁.Taken ids₂ labels₁ vars₁ functions₁)
    (h₂ : ids₂.Taken ids₃ labels₂ vars₂ functions₂) :
    ids₁.Taken ids₃ (labels₁ ++ labels₂) (vars₁ ++ vars₂) (functions₁ ++ functions₂) where
  reach := h₁.reach.trans h₂.reach
  labels label := by
    rw [count_append, ← within_add h₁.reach.labels h₂.reach.labels]
    exact Nat.add_le_add (h₁.labels label) (h₂.labels label)
  vars id := by
    rw [count_append, ← within_add h₁.reach.vars h₂.reach.vars]
    exact Nat.add_le_add (h₁.vars id) (h₂.vars id)
  functions id := by
    rw [count_append, ← within_add h₁.reach.functions h₂.reach.functions]
    exact Nat.add_le_add (h₁.functions id) (h₂.functions id)

lemma Taken.later (h : ids₁.Taken ids₂ labels vars functions) (hreach : ids₂.Reach ids₃) :
    ids₁.Taken ids₃ labels vars functions := by
  have key := h.trans (taken_nil hreach)
  rwa [append_nil, append_nil, append_nil] at key

/-- The order does not matter. -/
lemma Taken.perm {labels' : List Label} {vars' : List VarId} {functions' : List FunctionId}
    (h : ids.Taken ids' labels vars functions) (hlabels : labels.Perm labels')
    (hvars : vars.Perm vars') (hfunctions : functions.Perm functions') :
    ids.Taken ids' labels' vars' functions' where
  reach := h.reach
  labels label := hlabels.count_eq label ▸ h.labels label
  vars id := hvars.count_eq id ▸ h.vars id
  functions id := hfunctions.count_eq id ▸ h.functions id

lemma taken_var (ids : Ids) : ids.Taken (ids.skip 1 0) [] [⟨ids.nextVar⟩] where
  reach := ids.reach_skip 1 0
  labels _ := Nat.zero_le _
  vars id := by
    rw [count_singleton]
    exact Nat.le_of_eq (ite_localVar ids "" .int id)
  functions _ := Nat.zero_le _

lemma taken_loopLabels (ids : Ids) :
    ids.Taken (ids.skip 0 2) [ids.labelAt 0, ids.labelAt 1] [] where
  reach := ids.reach_skip 0 2
  labels label := by
    rw [count_cons, count_singleton, ite_labelAt, ite_labelAt, Nat.add_comm]
    exact Nat.le_of_eq (within_add (Nat.le_succ _) (Nat.le_succ _) label.index)
  vars _ := Nat.zero_le _
  functions _ := Nat.zero_le _

lemma taken_counting (ids : Ids) :
    ids.Taken (ids.skip 1 2) [ids.labelAt 0, ids.labelAt 1] [⟨ids.nextVar⟩] :=
  ids.taken_loopLabels.trans (ids.skip 0 2).taken_var

end Ids

/-- **What a statement introduces is taken from the counters**, each label and each variable at most
once. -/
theorem taken_bindStmt (b : Binder) (stx : Syntax.Stmt) (loops : List LoopLabels) (p : Progress) :
    b.Walks loops (bindStmt stx) p fun stmt p' => p.ids.Taken p'.ids stmt.labels stmt.varIds := by
  apply bindStmt_induct b
    (P := fun _ _ p stmt p' => p.ids.Taken p'.ids stmt.labels stmt.varIds)
    (Q := fun _ _ p stmts p' =>
      p.ids.Taken p'.ids (stmts.flatMap Stmt.labels) (stmts.flatMap Stmt.varIds))
  case failed => exact fun _ _ _ => Ids.taken_skip _ _ 0
  case declare => exact fun _ _ => Ids.taken_var _
  case bareReturn => exact fun _ => Ids.taken_skip _ 0 0
  case valueReturn => exact fun _ _ _ _ => Ids.taken_skip _ 0 0
  case expr => exact fun _ _ => Ids.taken_skip _ 0 0
  case breakLoop | continueLoop | nil => exact Ids.taken_skip _ 0 0
  case block =>
    intro _ _ _ p stmts p' h
    rw [labels_block, varIds_block]
    exact h
  case ifThen =>
    intro _ _ _ _ p c _ b p' _ h
    rw [labels_ifThen, Stmt.varIds, vars_ifThen]
    exact h
  case ifElse =>
    intro _ _ _ _ _ p c _ b₁ p₁ b₂ p₂ _ h₁ h₂
    rw [labels_ifElse, Stmt.varIds, vars_ifElse, map_append]
    exact h₁.trans h₂
  case whileLoop =>
    intro _ _ _ _ p c _ b p' _ h
    rw [labels_whileLoop, Stmt.varIds, vars_whileLoop]
    exact p.ids.taken_loopLabels.trans h
  case forLoop =>
    intro _ _ _ _ _ _ p i p₁ c _ a p₂ b p₃ hi _ ha hb
    rw [labels_forLoop, Stmt.varIds, vars_forLoop, map_append, map_append]
    exact p.ids.taken_loopLabels.trans (hi.trans (ha.trans hb))
  case fromTo =>
    intro _ iterator _ _ _ _ p l _ u _ b p' _ _ h
    rw [labels_fromTo, Stmt.varIds, vars_fromTo, map_cons]
    exact p.ids.taken_counting.trans h
  case loop =>
    intro _ _ _ _ p n _ b p' _ h
    rw [labels_loop, Stmt.varIds, vars_loop, map_cons]
    exact p.ids.taken_counting.trans h
  case cons => exact fun h₁ h₂ => h₁.trans h₂

/-! ### The parts of a statement -/

/-- Expressions that the binding of a body makes: bound ones, those that are converted, and
unresolved ones. -/
inductive Made (catalog : Catalog) : Expr → Prop
  | unresolved (span : Span) : Made catalog (.unresolved span)
  | bound {b b' stx e} : b.catalog = catalog → (bindExpr stx).run b = (e, b') → Made catalog e
  | converted {e e' target b b'} : Made catalog e → (convert e target false).run b = (e', b') →
    Made catalog e'

lemma made_bindVarDecl {bound : Ty × Option Expr} (h : (bindVarDecl decl).run b = (bound, b')) :
    ∀ e ∈ bound.2, Made b.catalog e := by
  obtain ⟨_, errs, hrun, hcases⟩ := bindVarDecl_cases decl b b.errors
  obtain ⟨rfl, -⟩ := Prod.mk.inj (hrun.symm.trans h)
  rcases hcases with ⟨-, hinit, -⟩ | ⟨_, _, _, -, -, hinit, -⟩ | ⟨_, _, _, -, he, hinit, -⟩ |
    ⟨_, _, errs₁, _, _, _, _, _, -, -, he, hconvert, hinit, -⟩
  · exact fun e he => nomatch hinit ▸ he
  · exact fun e he => nomatch hinit ▸ he
  · rw [hinit]
    rintro _ ⟨⟩
    exact .bound rfl he
  · rw [hinit]
    rintro _ ⟨⟩
    have hmade : Made b.catalog _ := .bound (b := b.reported errs₁) rfl he
    exact hmade.converted hconvert

/-- What holds of each part of a bound statement: its expressions are made by binding, its variables
live in the frame of a call, and its iterator has type `int`. -/
structure OwnBound (catalog : Catalog) (stmt : Stmt) : Prop where
  exprs : ∀ e ∈ stmt.ownExprs, Made catalog e
  locals : ∀ v ∈ stmt.ownVars, v.isGlobal = false
  ints : declared? stmt = none → ∀ v ∈ stmt.ownVars, v.type = .int

/-- **What holds of each part of a bound statement.** -/
theorem ownBound_bindStmt (b : Binder) (stx : Syntax.Stmt) (loops : List LoopLabels) (p : Progress) :
    b.Walks loops (bindStmt stx) p fun stmt _ => ∀ part ∈ stmt.parts, OwnBound b.catalog part := by
  have single {e : Expr} (h : Made b.catalog e) : ∀ e' ∈ [e], Made b.catalog e' :=
    forall_mem_singleton.mpr h
  have as {loops : List LoopLabels} {p : Progress} {stx : Syntax.Expr} {target : Ty} {e : Expr}
      {b' : Binder} (h : (bindAs stx target).run (b.along loops p) = (e, b')) : Made b.catalog e :=
    .converted (.bound (b := b.along loops p) rfl rfl) h
  -- a part that introduces no variable, before the parts inside
  have plain {stmt : Stmt} {inner : List Stmt} (hvars : stmt.ownVars = [])
      (hexprs : ∀ e ∈ stmt.ownExprs, Made b.catalog e)
      (hinner : ∀ part ∈ inner, OwnBound b.catalog part) :
      ∀ part ∈ stmt :: inner, OwnBound b.catalog part :=
    forall_mem_cons.mpr ⟨⟨hexprs, hvars ▸ forall_mem_nil _,
      fun _ => hvars ▸ forall_mem_nil _⟩, hinner⟩
  have nil {Q : Expr → Prop} : ∀ e ∈ [], Q e := forall_mem_nil Q
  have leaf : ∀ part ∈ [], OwnBound b.catalog part := forall_mem_nil _
  apply bindStmt_induct b
    (P := fun _ _ _ stmt _ => ∀ part ∈ stmt.parts, OwnBound b.catalog part)
    (Q := fun _ _ _ stmts _ => ∀ part ∈ stmts.flatMap Stmt.parts, OwnBound b.catalog part)
  case failed => exact fun _ _ _ => plain rfl (single (.unresolved _)) leaf
  case declare =>
    intro _ decl p type initializer errs scopes hdecl _
    refine forall_mem_singleton.mpr ⟨?_, forall_mem_singleton.mpr rfl, fun h => nomatch h⟩
    have hmade := made_bindVarDecl hdecl
    cases initializer with
    | none => exact nil
    | some e => exact single (hmade e rfl)
  case bareReturn => exact fun _ => plain rfl nil leaf
  case valueReturn => exact fun hrun _ _ _ => plain rfl (single (.bound (b := b.along _ _) rfl hrun)) leaf
  case expr => exact fun hrun _ => plain rfl (single (.bound (b := b.along _ _) rfl hrun)) leaf
  case breakLoop | continueLoop => exact plain rfl nil leaf
  case block =>
    intro _ _ _ _ stmts _ h
    rw [Stmt.parts, partsAll_eq_flatMap]
    exact plain rfl nil h
  case ifThen => exact fun hc h => plain rfl (single (as hc)) h
  case ifElse =>
    exact fun hc h₁ h₂ =>
      plain rfl (single (as hc)) (forall_mem_append.mpr ⟨h₁, h₂⟩)
  case whileLoop => exact fun hc h => plain rfl (single (as hc)) h
  case forLoop =>
    exact fun hi hc ha hb => plain rfl (single (as hc))
      (forall_mem_append.mpr ⟨forall_mem_append.mpr ⟨hi, ha⟩, hb⟩)
  case fromTo =>
    exact fun hl hu h => forall_mem_cons.mpr
      ⟨⟨forall_mem_cons.mpr ⟨as hl, single (as hu)⟩, forall_mem_singleton.mpr rfl,
        fun _ => forall_mem_singleton.mpr rfl⟩, h⟩
  case loop =>
    exact fun hn h => forall_mem_cons.mpr ⟨⟨single (as hn),
      forall_mem_singleton.mpr rfl, fun _ => forall_mem_singleton.mpr rfl⟩, h⟩
  case nil => exact leaf
  case cons => exact fun h₁ h₂ => forall_mem_append.mpr ⟨h₁, h₂⟩

end Parcel
