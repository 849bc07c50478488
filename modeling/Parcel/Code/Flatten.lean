import Parcel.Code.Tree

/-!
# Flattening of blocks

Nested blocks become one list of statements. Where a block ends, the variables that it declares
itself are deleted, the last one first, unless the block deletes them already. What is still to be
opened is kept on a worklist, so that the depth of the nesting does not matter.
-/

namespace Parcel.Code

/-- The variables that statements delete themselves. -/
def deletedIds (stmts : List Stmt) : List VarId :=
  stmts.filterMap fun
    | .delete var => some var.id
    | _ => none

/-- The deletion that a statement calls for at the end of its block, given what is deleted there
already. -/
def deletionFor? (deleted : List VarId) : Stmt → Option Stmt
  | .declare var _ => if var.id ∈ deleted then none else some (.delete var)
  | _ => none

/-- The deletions at the end of a block, those of the last declarations first. -/
def cleanup (stmts : List Stmt) : List Stmt :=
  stmts.reverse.filterMap (deletionFor? (deletedIds stmts))

mutual

/-- The number of steps in which a statement is opened completely, at most. -/
def Stmt.cost : Stmt → Nat
  | .block stmts => 1 + openedCost stmts
  | _ => 1

/-- The steps for the statements of a block and for the deletions at its end. -/
def openedCost : List Stmt → Nat
  | [] => 0
  | stmt :: stmts => stmt.cost + 1 + openedCost stmts

end

/-- The steps for a worklist. -/
def pendingCost : List Stmt → Nat
  | [] => 0
  | stmt :: pending => stmt.cost + pendingCost pending

theorem openedCost_eq (stmts : List Stmt) :
    openedCost stmts = pendingCost stmts + stmts.length := by
  induction stmts with
  | nil => rfl
  | cons stmt stmts ih =>
    simp only [openedCost, ih, pendingCost, List.length_cons]
    omega

theorem pendingCost_append (first second : List Stmt) :
    pendingCost (first ++ second) = pendingCost first + pendingCost second := by
  induction first with
  | nil => simp [pendingCost]
  | cons stmt first ih => simp only [List.cons_append, pendingCost, ih, Nat.add_assoc]

theorem cost_pos (stmt : Stmt) : 0 < stmt.cost := by
  cases stmt <;> simp only [Stmt.cost] <;> omega

/-- A deletion is opened in one step. -/
theorem cost_of_deletionFor? {deleted : List VarId} {stmt deletion : Stmt}
    (h : deletionFor? deleted stmt = some deletion) : deletion.cost = 1 := by
  cases stmt <;> simp only [deletionFor?] at h
  case declare var initializer =>
    split at h
    · cases h
    · cases h; rfl
  all_goals cases h

theorem pendingCost_filterMap_le (deleted : List VarId) (stmts : List Stmt) :
    pendingCost (stmts.filterMap (deletionFor? deleted)) ≤ stmts.length := by
  induction stmts with
  | nil => simp [pendingCost]
  | cons stmt stmts ih =>
    cases h : deletionFor? deleted stmt with
    | none =>
      rw [List.filterMap_cons_none h, List.length_cons]
      omega
    | some deletion =>
      rw [List.filterMap_cons_some h, List.length_cons]
      simp only [pendingCost, cost_of_deletionFor? h]
      omega

/-- The deletions of a block are no more steps than it has statements. -/
theorem pendingCost_cleanup_le (stmts : List Stmt) :
    pendingCost (cleanup stmts) ≤ stmts.length := by
  have h := pendingCost_filterMap_le (deletedIds stmts) stmts.reverse
  rwa [List.length_reverse] at h

/-- Opens the blocks of a worklist; `done` holds what is finished, the last statement first. -/
def flattenFrom (done : List Stmt) : List Stmt → List Stmt
  | [] => done.reverse
  | .block stmts :: pending => flattenFrom done (stmts ++ cleanup stmts ++ pending)
  | stmt :: pending => flattenFrom (stmt :: done) pending
termination_by pending => pendingCost pending
decreasing_by
  · have := pendingCost_cleanup_le stmts
    have first := openedCost_eq stmts
    rw [pendingCost_append, pendingCost_append]
    simp only [pendingCost, Stmt.cost] at *
    omega
  · have := cost_pos stmt
    simp only [pendingCost]
    omega

/-- A statement as a list without blocks. -/
def flatten (stmt : Stmt) : List Stmt :=
  flattenFrom [] [stmt]

end Parcel.Code
