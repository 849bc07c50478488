import Parcel.Proofs.Code.Program
import Parcel.Proofs.Code.Scoped

/-!
# The expressions of statements and programs

Lowering and flattening change statements, not expressions: what they add to the expressions of a
program are the comparisons and the first bounds of counting loops.
-/

namespace Parcel.Code

open List

/-- The expressions that stand in a statement and in the statements inside it. -/
def Stmt.exprs (stmt : Stmt) : List Expr :=
  stmt.parts.flatMap Stmt.ownExprs

/-- The expressions that stand in the bodies and the initial values of a program. -/
def Program.exprs (p : Program) : List Expr :=
  p.functions.flatMap (·.body.stmts.flatMap Stmt.ownExprs) ++
    p.globals.flatMap (·.stmts.flatMap Stmt.exprs)

lemma mem_parts_self (stmt : Stmt) : stmt ∈ stmt.parts :=
  stmt.parts_eq_cons ▸ mem_cons_self

lemma exprs_declare (v : Var) (initializer : Option Expr) :
    (Stmt.declare v initializer).exprs = initializer.toList := by
  cases initializer with
  | none | some => rfl

/-! ### Lowering -/

section Lowering

variable {P : Expr → Prop}
  (hcompare : ∀ iterator bound span₁ span₂ span,
    P (.binary (.name iterator span₁) .ne (.name bound span₂) .bool span))
  (hzero : ∀ span, P (.int 0 span))
include hcompare hzero

/-- **What holds of the expressions of a statement, holds of them after lowering**, if it holds of
the comparisons and the first bounds of counting loops. -/
theorem forall_exprs_lower (stmt : Stmt) (ids : Ids) (h : ∀ e ∈ stmt.exprs, P e) :
    ∀ e ∈ (stmt.lower.run ids).1.exprs, P e := by
  have hsurvives : Survives (∀ e ∈ ·.ownExprs, P e) fun _ => True := by
    constructor
    case fromTo =>
      intro iterator lower upper _ _ ids label hown _ _ _
      rw [Stmt.ownExprs, forall_mem_cons, forall_mem_singleton] at hown
      simp [Stmt.ownExprs, hown, hcompare]
    case loop => simp [Stmt.ownExprs, hzero]
    all_goals simp [Stmt.ownExprs]
  have hlow := hsurvives.forall_lower stmt ids (forall_mem_flatMap.mp h) fun _ _ => trivial
  exact forall_mem_flatMap.mpr hlow

lemma forall_exprs_lower_function (f : Function) (ids : Ids)
    (h : ∀ e ∈ f.body.stmts.flatMap Stmt.ownExprs, P e) :
    ∀ e ∈ (f.lower.run ids).1.body.stmts.flatMap Stmt.ownExprs, P e := by
  cases hbody : f.body with
  | structured body =>
    rw [hbody] at h
    rw [lower_structured hbody, flatMap_stmts_lowered (fun _ => rfl) fun _ => rfl]
    exact forall_exprs_lower hcompare hzero body ids h
  | lowered => rwa [lower_lowered hbody]

/-- **What holds of the expressions of a program, holds of them after lowering.** -/
theorem forall_exprs_lower_program (p : Program) (ids : Ids) (h : ∀ e ∈ p.exprs, P e) :
    ∀ e ∈ (p.lower.run ids).1.exprs, P e := by
  obtain ⟨hfunctions, hglobals⟩ := forall_mem_append.mp h
  refine forall_mem_append.mpr ⟨?_, hglobals⟩
  rw [forall_mem_flatMap] at hfunctions ⊢
  exact forall_functions_lower (forall_exprs_lower_function hcompare hzero) hfunctions ids

end Lowering

end Parcel.Code
