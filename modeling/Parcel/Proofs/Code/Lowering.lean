import Parcel.Code.Lowering
import Parcel.Proofs.Code.Flat

/-!
# Induction along lowering

Lowering takes labels and variables from counters. This file says once what the lowered form of each
statement is, as an induction principle, from which the properties of lowered code are derived.
-/

namespace Parcel

namespace Ids

/-- The counters after so many variables and labels are taken. -/
def skip (ids : Ids) (vars labels : Nat) : Ids :=
  ⟨ids.nextVar + vars, ids.nextFunction, ids.nextLabel + labels⟩

variable (ids : Ids) (vars labels : Nat)

@[simp, grind =] lemma nextVar_skip : (ids.skip vars labels).nextVar = ids.nextVar + vars := rfl

@[simp, grind =] lemma nextLabel_skip :
    (ids.skip vars labels).nextLabel = ids.nextLabel + labels := rfl

/-- The label that is taken after `offset` others. -/
def labelAt (ids : Ids) (offset : Nat) : Label :=
  ⟨ids.nextLabel + offset⟩

/-- The next local variable. -/
def localVar (ids : Ids) (name : String) (type : Ty) : Var :=
  ⟨⟨ids.nextVar⟩, name, type, .local⟩

/-- Counters that other counters reach by taking ids. -/
structure Reach (ids later : Ids) : Prop where
  vars : ids.nextVar ≤ later.nextVar
  functions : ids.nextFunction ≤ later.nextFunction
  labels : ids.nextLabel ≤ later.nextLabel

lemma Reach.refl : ids.Reach ids :=
  ⟨Nat.le_refl _, Nat.le_refl _, Nat.le_refl _⟩

lemma Reach.trans {a b c : Ids} (hab : a.Reach b) (hbc : b.Reach c) : a.Reach c :=
  ⟨Nat.le_trans hab.vars hbc.vars, Nat.le_trans hab.functions hbc.functions,
    Nat.le_trans hab.labels hbc.labels⟩

lemma reach_skip : ids.Reach (ids.skip vars labels) :=
  ⟨Nat.le_add_right _ _, Nat.le_refl _, Nat.le_add_right _ _⟩

end Ids

namespace Code

/-! ### Induction along lowering -/

/-- **Induction along lowering.** A property of a statement, its lowered form and the counters
before and after holds throughout if it passes from the statements inside to each form. -/
theorem lower_induct {P : Ids → Stmt → Stmt → Ids → Prop}
    {Q : Ids → List Stmt → List Stmt → Ids → Prop}
    (simple : ∀ {ids stmt}, stmt.isLowered = true → P ids stmt stmt ids)
    (nil : ∀ {ids}, Q ids [] [] ids)
    (cons : ∀ {ids ids₁ ids₂ stmt stmts low lows}, P ids stmt low ids₁ → Q ids₁ stmts lows ids₂ →
      Q ids (stmt :: stmts) (low :: lows) ids₂)
    (block : ∀ {ids ids' stmts lows}, Q ids stmts lows ids' → P ids (.block stmts) (.block lows) ids')
    (ifThen : ∀ {ids ids' condition branch low}, P (ids.skip 0 2) branch low ids' →
      P ids (.ifElse condition branch none)
        (ifCode (ids.labelAt 0) (ids.labelAt 1) condition low) ids')
    (ifElse : ∀ {ids ids₁ ids₂ condition first second low₁ low₂}, P (ids.skip 0 3) first low₁ ids₁ →
      P ids₁ second low₂ ids₂ →
      P ids (.ifElse condition first (some second))
        (ifElseCode (ids.labelAt 0) (ids.labelAt 1) (ids.labelAt 2) condition low₁ low₂) ids₂)
    (whileLoop : ∀ {ids ids' condition body low labels}, P (ids.skip 0 1) body low ids' →
      P ids (.whileLoop condition body labels)
        (whileCode (ids.labelAt 0) condition low labels) ids')
    (forLoop : ∀ {ids ids₁ ids₂ ids₃ initial condition action body labels low₁ low₂ low₃},
      P (ids.skip 0 1) initial low₁ ids₁ → P (ids₁.skip 0 1) body low₂ ids₂ →
      P ids₂ action low₃ ids₃ →
      P ids (.forLoop initial condition action body labels)
        (forCode (ids.labelAt 0) (ids₁.labelAt 0) low₁ condition low₃ low₂ labels
          (declared? initial)) ids₃)
    (fromTo : ∀ {ids ids' iterator lower upper body labels low}, P (ids.skip 1 2) body low ids' →
      P ids (.fromTo iterator lower upper body labels)
        (countingCode (ids.localVar boundName .int) (ids.labelAt 0) (ids.labelAt 1) iterator lower
          upper low labels) ids')
    (loop : ∀ {ids ids' iterator count body labels low},
      P ids (.fromTo iterator (.int 0 count.span) count body labels) low ids' →
      P ids (.loop iterator count body labels) low ids')
    (stmt : Stmt) (ids : Ids) : P ids stmt (stmt.lower.run ids).1 (stmt.lower.run ids).2 := by
  induction stmt using Stmt.structural generalizing ids with
  | declare | ret | expr | label | goto | gotoIf | delete | approach => exact simple rfl
  | block stmts ih =>
    have all : ∀ stmts, (∀ stmt ∈ stmts, ∀ ids, P ids stmt (stmt.lower.run ids).1
        (stmt.lower.run ids).2) → ∀ ids, Q ids stmts ((lowerAll stmts).run ids).1
        ((lowerAll stmts).run ids).2 := by
      intro stmts
      induction stmts with
      | nil => exact fun _ _ => nil
      | cons stmt stmts ihs =>
        intro h ids
        exact cons (h stmt List.mem_cons_self ids) (ihs (fun s hs => h s (.tail _ hs)) _)
    exact block (all stmts ih ids)
  | ifThen condition branch ih => exact ifThen (ih _)
  | ifElse condition first second ih₁ ih₂ => exact ifElse (ih₁ _) (ih₂ _)
  | whileLoop condition body labels ih => exact whileLoop (ih _)
  | forLoop initial condition action body labels ihi iha ihb => exact forLoop (ihi _) (ihb _) (iha _)
  | fromTo iterator lower upper body labels ih => exact fromTo (ih _)
  | loop iterator count body labels ih => exact loop (fromTo (ih _))

/-! ### Jump code -/

lemma isJumpCode_block {stmts : List Stmt} :
    IsJumpCode (.block stmts) ↔ ∀ stmt ∈ stmts, IsJumpCode stmt := by
  refine ⟨fun h => ?_, .block⟩
  cases h with
  | block h => exact h
  | lowered h => cases h

/-- Lowering leaves no loops and branches. -/
lemma isJumpCode_lower (stmt : Stmt) (ids : Ids) : IsJumpCode (stmt.lower.run ids).1 := by
  apply lower_induct (P := fun _ _ low _ => IsJumpCode low)
    (Q := fun _ _ lows _ => ∀ low ∈ lows, IsJumpCode low)
  case simple => exact .lowered
  case nil => exact List.forall_mem_nil _
  case cons => exact fun h hs => List.forall_mem_cons.mpr ⟨h, hs⟩
  case block => exact .block
  case loop => exact id
  -- the other forms are blocks of the lowered parts, labels, jumps and deletions
  all_goals
    intros
    simp only [ifCode, ifElseCode, whileCode, forCode, countingCode, isJumpCode_block,
      List.forall_mem_append, List.forall_mem_cons, Option.mem_toList, Option.map_eq_some_iff,
      List.not_mem_nil, false_imp_iff, implies_true, and_true]
    grind [← IsJumpCode.lowered, Stmt.isLowered]

end Code

end Parcel
