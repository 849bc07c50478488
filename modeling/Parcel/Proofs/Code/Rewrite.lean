import Parcel.Proofs.Code.Lowering

/-!
# Lowering by rewriting

Loops are rewritten into one another: a loop that counts from zero into one between two bounds, that
one into a `for`, and a `for` into a `while`. What is built on the way is rewritten again, so the
statements do not get smaller. Still every statement has exactly one rewriting, and it is the one
that lowering computes by recursion on the statement.
-/

namespace Parcel.Code

variable {body stmt low : Stmt} {labels : LoopLabels} {ids ids' ids₁ ids₂ : Ids}

/-- A `for` as a `while` in a block; `test` is where the condition is tested. -/
def whileOfFor (test : Label) (initial : Stmt) (condition : Expr) (action body : Stmt)
    (labels : LoopLabels) : Stmt :=
  .block ([initial, .whileLoop condition (.block [body, .label labels.onContinue, action])
    ⟨labels.onBreak, test⟩] ++ ((declared? initial).map Stmt.delete).toList)

/-- A loop between two bounds as a `for`, after the upper bound is evaluated. -/
def forOfFromTo (bound iterator : Var) (lower upper : Expr) (body : Stmt) (labels : LoopLabels) :
    Stmt :=
  let condition := Expr.binary (.name iterator lower.span) .ne (.name bound upper.span) .bool
    (lower.span.merge upper.span)
  .block
    [.declare bound (some upper),
      .forLoop (.declare iterator (some lower)) condition (.approach iterator bound) body labels,
      .delete bound]

mutual

/-- The rewriting of a statement, with the counters before and after it. -/
inductive Rewrites : Ids → Stmt → Stmt → Ids → Prop
  | simple {ids : Ids} {stmt} (h : stmt.isLowered = true) : Rewrites ids stmt stmt ids
  | block {ids ids' stmts lows} (h : RewritesAll ids stmts lows ids') :
    Rewrites ids (.block stmts) (.block lows) ids'
  | ifThen {ids ids' condition branch low} (h : Rewrites (ids.skip 0 2) branch low ids') :
    Rewrites ids (.ifElse condition branch none)
      (ifCode (ids.labelAt 0) (ids.labelAt 1) condition low) ids'
  | ifElse {ids ids₁ ids₂ condition first second low₁ low₂}
    (h₁ : Rewrites (ids.skip 0 3) first low₁ ids₁) (h₂ : Rewrites ids₁ second low₂ ids₂) :
    Rewrites ids (.ifElse condition first (some second))
      (ifElseCode (ids.labelAt 0) (ids.labelAt 1) (ids.labelAt 2) condition low₁ low₂) ids₂
  | whileLoop {ids ids' condition body low labels} (h : Rewrites (ids.skip 0 1) body low ids') :
    Rewrites ids (.whileLoop condition body labels)
      (whileCode (ids.labelAt 0) condition low labels) ids'
  | forLoop {ids ids' initial action body low condition labels}
    (h : Rewrites (ids.skip 0 1)
      (whileOfFor (ids.labelAt 0) initial condition action body labels) low ids') :
    Rewrites ids (.forLoop initial condition action body labels) low ids'
  | fromTo {ids ids' iterator lower upper body low labels}
    (h : Rewrites (ids.skip 1 0)
      (forOfFromTo (ids.localVar boundName .int) iterator lower upper body labels) low ids') :
    Rewrites ids (.fromTo iterator lower upper body labels) low ids'
  | loop {ids ids' iterator count body low labels}
    (h : Rewrites ids (.fromTo iterator (.int 0 count.span) count body labels) low ids') :
    Rewrites ids (.loop iterator count body labels) low ids'

/-- The rewriting of statements, one after the other. -/
inductive RewritesAll : Ids → List Stmt → List Stmt → Ids → Prop
  | nil {ids : Ids} : RewritesAll ids [] [] ids
  | cons {ids ids₁ ids₂ stmt low stmts lows} (h : Rewrites ids stmt low ids₁)
    (hs : RewritesAll ids₁ stmts lows ids₂) :
    RewritesAll ids (stmt :: stmts) (low :: lows) ids₂

end

/-! ### What is built on the way -/

/-- A `for` is lowered as the `while` that it stands for. -/
lemma lower_whileOfFor (initial : Stmt) (condition : Expr) (action body : Stmt)
    (labels : LoopLabels) (ids : Ids) :
    (whileOfFor (ids.labelAt 0) initial condition action body labels).lower.run (ids.skip 0 1) =
      (Stmt.forLoop initial condition action body labels).lower.run ids := by
  cases h : declared? initial with
  | none | some v =>
    rw [whileOfFor, h, Stmt.lower, Stmt.lower, h]
    rfl

/-- A loop between two bounds is lowered as the `for` that it stands for. -/
lemma lower_forOfFromTo (iterator : Var) (lower upper : Expr) (body : Stmt)
    (labels : LoopLabels) (ids : Ids) :
    (forOfFromTo (ids.localVar boundName .int) iterator lower upper body labels).lower.run
      (ids.skip 1 0) = (Stmt.fromTo iterator lower upper body labels).lower.run ids :=
  rfl

lemma lower_fromZero (iterator : Var) (count : Expr) (body : Stmt) (labels : LoopLabels)
    (ids : Ids) : (Stmt.fromTo iterator (.int 0 count.span) count body labels).lower.run ids =
      (Stmt.loop iterator count body labels).lower.run ids :=
  rfl

lemma lower_of_isLowered (h : stmt.isLowered = true) (ids : Ids) :
    stmt.lower.run ids = (stmt, ids) := by
  cases stmt with
  | block | ifElse | whileLoop | forLoop | fromTo | loop => cases h
  | _ => rfl

/-! ### Rewriting and lowering -/

lemma Rewrites.lower_eq (h : Rewrites ids stmt low ids') : stmt.lower.run ids = (low, ids') := by
  refine @Rewrites.rec (fun ids stmt low ids' _ => stmt.lower.run ids = (low, ids'))
    (fun ids stmts lows ids' _ => (lowerAll stmts).run ids = (lows, ids'))
    ?simple ?block ?ifThen ?ifElse ?whileLoop ?forLoop ?fromTo ?loop ?nil ?cons ids stmt low ids' h
  case simple => exact fun h => lower_of_isLowered h _
  case block =>
    intro ids ids' stmts lows _ ih
    show (Stmt.block ((lowerAll stmts).run ids).1, ((lowerAll stmts).run ids).2) = _
    rw [ih]
  case ifThen =>
    intro ids ids' condition branch low _ ih
    show (ifCode (ids.labelAt 0) (ids.labelAt 1) condition (branch.lower.run (ids.skip 0 2)).1,
      (branch.lower.run (ids.skip 0 2)).2) = _
    rw [ih]
  case ifElse =>
    intro ids ids₁ ids₂ condition first second low₁ low₂ _ _ ih₁ ih₂
    show (ifElseCode (ids.labelAt 0) (ids.labelAt 1) (ids.labelAt 2) condition
      (first.lower.run (ids.skip 0 3)).1
      (second.lower.run (first.lower.run (ids.skip 0 3)).2).1,
      (second.lower.run (first.lower.run (ids.skip 0 3)).2).2) = _
    rw [ih₁, ih₂]
  case whileLoop =>
    intro ids ids' condition body low labels _ ih
    show (whileCode (ids.labelAt 0) condition (body.lower.run (ids.skip 0 1)).1 labels,
      (body.lower.run (ids.skip 0 1)).2) = _
    rw [ih]
  case forLoop =>
    intro ids ids' initial action body low condition labels _ ih
    rw [← lower_whileOfFor, ih]
  case fromTo =>
    intro ids ids' iterator lower upper body low labels _ ih
    rw [← lower_forOfFromTo, ih]
  case loop =>
    intro ids ids' iterator count body low labels _ ih
    rw [← lower_fromZero, ih]
  case nil => exact rfl
  case cons =>
    intro ids ids₁ ids₂ stmt low stmts lows _ _ ih ihs
    show ((stmt.lower.run ids).1 :: ((lowerAll stmts).run (stmt.lower.run ids).2).1,
      ((lowerAll stmts).run (stmt.lower.run ids).2).2) = _
    rw [ih, ihs]

lemma RewritesAll.append {stmts stmts' lows lows' : List Stmt}
    (h : RewritesAll ids stmts lows ids₁) (h' : RewritesAll ids₁ stmts' lows' ids₂) :
    RewritesAll ids (stmts ++ stmts') (lows ++ lows') ids₂ := by
  induction stmts generalizing ids lows with
  | nil =>
    cases h
    exact h'
  | cons stmt stmts ih =>
    cases h with
    | cons hstmt hs => exact .cons hstmt (ih hs)

lemma rewritesAll_deletion (ids : Ids) (v : Option Var) :
    RewritesAll ids (v.map Stmt.delete).toList (v.map Stmt.delete).toList ids := by
  cases v with
  | none => exact .nil
  | some => exact .cons (.simple rfl) .nil

/-- A `for` is rewritten if its parts are. -/
lemma rewrites_forLoop {ids₃ : Ids} {initial action low₁ low₂ low₃ : Stmt} {condition : Expr}
    (hinitial : Rewrites (ids.skip 0 1) initial low₁ ids₁)
    (hbody : Rewrites (ids₁.skip 0 1) body low₂ ids₂) (haction : Rewrites ids₂ action low₃ ids₃) :
    Rewrites ids (.forLoop initial condition action body labels)
      (forCode (ids.labelAt 0) (ids₁.labelAt 0) low₁ condition low₃ low₂ labels
        (declared? initial)) ids₃ := by
  have hround : Rewrites (ids₁.skip 0 1) (.block [body, .label labels.onContinue, action])
      (.block [low₂, .label labels.onContinue, low₃]) ids₃ :=
    .block (.cons hbody (.cons (.simple rfl) (.cons haction .nil)))
  exact .forLoop (.block (RewritesAll.append (.cons hinitial (.cons (.whileLoop hround) .nil))
    (rewritesAll_deletion ids₃ (declared? initial))))

lemma rewrites_fromTo {iterator : Var} {lower upper : Expr}
    (hbody : Rewrites (ids.skip 1 2) body low ids') :
    Rewrites ids (.fromTo iterator lower upper body labels)
      (countingCode (ids.localVar boundName .int) (ids.labelAt 0) (ids.labelAt 1) iterator lower
        upper low labels) ids' := by
  have hfor := @rewrites_forLoop body labels (ids.skip 1 0) _ _ _ (.declare iterator (some lower)) _ _
    low _ (.binary (.name iterator lower.span) .ne (.name (ids.localVar boundName .int) upper.span)
      .bool (lower.span.merge upper.span)) (.simple rfl) hbody
    (.simple rfl : Rewrites _ (.approach iterator (ids.localVar boundName .int)) _ _)
  exact .fromTo (.block (.cons (.simple rfl) (.cons hfor (.cons (.simple rfl) .nil))))

/-- **Rewriting ends,** with what lowering gives and with nothing else. -/
theorem rewrites_iff : Rewrites ids stmt low ids' ↔ stmt.lower.run ids = (low, ids') := by
  refine ⟨Rewrites.lower_eq, fun h => ?_⟩
  have key := lower_induct (P := Rewrites) (Q := RewritesAll) .simple .nil .cons .block .ifThen
    .ifElse .whileLoop rewrites_forLoop rewrites_fromTo .loop stmt ids
  rwa [h] at key

end Parcel.Code
