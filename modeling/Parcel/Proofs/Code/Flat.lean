import Mathlib.Data.List.Basic
import Mathlib.Tactic.Common
import Parcel.Code.Flatten

/-!
# Flattening by recursion

`Parcel.Code.flatten` opens blocks from a worklist. Here it is shown to be the recursion over the
statement: a block becomes what its statements become, one after the other, and then its deletions.
-/

namespace Parcel.Code

open List

variable {stmt : Stmt} {P : Stmt → Prop} (stmts : List Stmt)

/-! ### Parts of a statement -/

mutual

/-- A statement and all statements inside it. -/
def Stmt.parts : Stmt → List Stmt
  | .block stmts => .block stmts :: partsAll stmts
  | .whileLoop condition body labels => .whileLoop condition body labels :: body.parts
  | .forLoop initial condition action body labels =>
    .forLoop initial condition action body labels ::
      (initial.parts ++ action.parts ++ body.parts)
  | .fromTo iterator lower upper body labels =>
    .fromTo iterator lower upper body labels :: body.parts
  | .loop iterator count body labels => .loop iterator count body labels :: body.parts
  | .ifElse condition thenBranch none => .ifElse condition thenBranch none :: thenBranch.parts
  | .ifElse condition thenBranch (some elseBranch) =>
    .ifElse condition thenBranch (some elseBranch) :: (thenBranch.parts ++ elseBranch.parts)
  | .declare var initializer => [.declare var initializer]
  | .ret value => [.ret value]
  | .expr value => [.expr value]
  | .label label => [.label label]
  | .goto label => [.goto label]
  | .gotoIf condition label => [.gotoIf condition label]
  | .delete var => [.delete var]
  | .approach var target => [.approach var target]

/-- Statements and all statements inside them. -/
def partsAll : List Stmt → List Stmt
  | [] => []
  | stmt :: stmts => stmt.parts ++ partsAll stmts

end

lemma partsAll_eq_flatMap : partsAll stmts = stmts.flatMap Stmt.parts := by
  induction stmts with
  | nil => rfl
  | cons stmt stmts ih => rw [partsAll, ih, flatMap_cons]

/-- Induction over statements: a property of all statements inside passes to the statement. -/
lemma Stmt.structural (declare : ∀ var initializer, P (.declare var initializer))
    (ret : ∀ value, P (.ret value))
    (whileLoop : ∀ condition body labels, P body → P (.whileLoop condition body labels)) (forLoop :
      ∀ initial condition action body labels, P initial → P action → P body → P (.forLoop initial
      condition action body labels)) (fromTo : ∀ iterator lower upper body labels, P body → P
      (.fromTo iterator lower upper body labels))
    (loop : ∀ iterator count body labels, P body → P (.loop iterator count body labels))
    (block : ∀ stmts, (∀ stmt ∈ stmts, P stmt) → P (.block stmts)) (expr : ∀ value, P (.expr value))
    (ifThen : ∀ condition thenBranch, P thenBranch → P (.ifElse condition thenBranch none)) (ifElse
      : ∀ condition thenBranch elseBranch, P thenBranch → P elseBranch → P (.ifElse condition
      thenBranch (some elseBranch))) (label : ∀ label, P (.label label))
    (goto : ∀ label, P (.goto label)) (gotoIf : ∀ condition label, P (.gotoIf condition label))
    (delete : ∀ var, P (.delete var)) (approach : ∀ var target, P (.approach var target))
    (stmt : Stmt) : P stmt := by
  refine @Stmt.rec P (fun stmts => ∀ stmt ∈ stmts, P stmt) (fun branch => ∀ stmt ∈ branch, P stmt)
    declare ret whileLoop forLoop fromTo loop block expr ?_ label goto gotoIf delete approach
    ?_ ?_ ?_ ?_ stmt
  · intro condition thenBranch elseBranch hthen helse
    cases elseBranch with
    | none => exact ifThen condition thenBranch hthen
    | some branch => exact ifElse condition thenBranch branch hthen (helse branch rfl)
  · simp
  · intro head tail hhead htail stmt hmem
    rcases mem_cons.mp hmem with rfl | hmem
    · exact hhead
    · exact htail stmt hmem
  · simp
  · intro branch hbranch stmt hmem
    cases hmem
    exact hbranch

/-- The statements directly inside a statement. -/
def Stmt.children : Stmt → List Stmt
  | .block stmts => stmts
  | .ifElse _ thenBranch elseBranch => thenBranch :: elseBranch.toList
  | .forLoop initial _ action body _ => [initial, action, body]
  | .whileLoop _ body _ | .fromTo _ _ _ body _ | .loop _ _ body _ => [body]
  | _ => []

lemma Stmt.parts_eq_cons (stmt : Stmt) :
    stmt.parts = stmt :: stmt.children.flatMap Stmt.parts := by
  cases stmt with
  | block => rw [Stmt.parts, partsAll_eq_flatMap, Stmt.children]
  | ifElse condition first second => cases second <;> simp [Stmt.parts, Stmt.children]
  | _ => simp [Stmt.parts, Stmt.children]

/-- What passes from the statements directly inside a statement to it holds of all statements. -/
lemma Stmt.children_induct (h : ∀ stmt : Stmt, (∀ child ∈ stmt.children, P child) → P stmt)
    (stmt : Stmt) : P stmt := by
  induction stmt using Stmt.structural with
  | block stmts ih => exact h _ ih
  | _ => exact h _ (by simp [Stmt.children, *])

lemma Stmt.part_induct {part : Stmt} (self : P part)
    (inside : ∀ stmt, ∀ child ∈ stmt.children, P child → P stmt) (stmt : Stmt) :
    part ∈ stmt.parts → P stmt := by
  induction stmt using Stmt.children_induct with
  | h stmt ih =>
    intro hpart
    rw [parts_eq_cons] at hpart
    rcases mem_cons.mp hpart with rfl | hpart
    · exact self
    · obtain ⟨child, hchild, hpart⟩ := mem_flatMap.mp hpart
      exact inside stmt child hchild (ih child hchild hpart)

/-! ### Flattening by recursion -/

mutual

/-- A statement as a list without blocks: a block is followed by its deletions. -/
def Stmt.flat : Stmt → List Stmt
  | .block stmts => flatAll stmts ++ cleanup stmts
  | stmt => [stmt]

/-- Statements as a list without blocks. -/
def flatAll : List Stmt → List Stmt
  | [] => []
  | stmt :: stmts => stmt.flat ++ flatAll stmts

end

lemma flatAll_eq_flatMap : flatAll stmts = stmts.flatMap Stmt.flat := by
  induction stmts with
  | nil => rfl
  | cons stmt stmts ih => rw [flatAll, ih, flatMap_cons]

@[simp] lemma flat_block : (Stmt.block stmts).flat = stmts.flatMap Stmt.flat ++ cleanup stmts := by
  rw [Stmt.flat, flatAll_eq_flatMap]

lemma flat_of_ne_block (h : ∀ stmts, stmt ≠ .block stmts) : stmt.flat = [stmt] := by
  cases stmt with
  | block stmts => exact absurd rfl (h stmts)
  | _ => rfl

lemma exists_delete_of_mem_cleanup {stmts : List Stmt} (h : stmt ∈ cleanup stmts) :
    ∃ var initializer, stmt = .delete var ∧ .declare var initializer ∈ stmts := by
  rw [cleanup, mem_filterMap] at h
  obtain ⟨source, hmem, hsource⟩ := h
  cases source <;> simp only [deletionFor?] at hsource
  case declare var initializer =>
    split at hsource
    · cases hsource
    · cases hsource
      exact ⟨var, initializer, rfl, mem_reverse.mp hmem⟩
  all_goals cases hsource

lemma flatMap_flat_cleanup : (cleanup stmts).flatMap Stmt.flat = cleanup stmts := by
  have single : ∀ stmt ∈ cleanup stmts, stmt.flat = [stmt] := by
    intro stmt hstmt
    obtain ⟨var, -, rfl, -⟩ := exists_delete_of_mem_cleanup hstmt
    rfl
  rw [flatMap_congr single, flatMap_singleton']

/-- The worklist adds the flattened statements to what is finished. -/
lemma flattenFrom_eq (done pending : List Stmt) :
    flattenFrom done pending = done.reverse ++ pending.flatMap Stmt.flat := by
  induction done, pending using flattenFrom.induct with
  | case1 => simp [flattenFrom]
  | case2 done stmts pending ih =>
    rw [flattenFrom, ih, flatMap_append, flatMap_append, flatMap_flat_cleanup,
      flatMap_cons, flat_block]
  | case3 done stmt pending hblock ih =>
    rw [flattenFrom, ih, flatMap_cons, flat_of_ne_block hblock]
    · simp
    · exact hblock

/-- The worklist computes the recursion over the statement. -/
lemma flatten_eq_flat (stmt : Stmt) : flatten stmt = stmt.flat := by
  simp [flatten, flattenFrom_eq]

/-! ### Jump code -/

@[simp] lemma parts_block : (Stmt.block stmts).parts = .block stmts :: stmts.flatMap Stmt.parts :=
  Stmt.parts_eq_cons _

lemma parts_of_isLowered (h : stmt.isLowered = true) : stmt.parts = [stmt] := by
  cases stmt <;> first | rfl | cases h

lemma flat_of_isLowered (h : stmt.isLowered = true) : stmt.flat = [stmt] := by
  cases stmt <;> first | rfl | cases h

/-- Statements without loops and branches: blocks and what may stand in lowered code. -/
inductive IsJumpCode : Stmt → Prop
  | lowered {stmt : Stmt} (h : stmt.isLowered = true) : IsJumpCode stmt
  | block {stmts : List Stmt} (h : ∀ stmt ∈ stmts, IsJumpCode stmt) : IsJumpCode (.block stmts)

lemma IsJumpCode.isLowered_of_mem_flat (h : IsJumpCode stmt) :
    ∀ part ∈ stmt.flat, part.isLowered = true := by
  induction h with
  | lowered h =>
    intro part hpart
    rw [flat_of_isLowered h, mem_singleton] at hpart
    rw [hpart, h]
  | block h ih =>
    intro part hpart
    rw [flat_block, mem_append, mem_flatMap] at hpart
    rcases hpart with ⟨stmt, hstmt, hpart⟩ | hpart
    · exact ih stmt hstmt part hpart
    · obtain ⟨var, -, rfl, -⟩ := exists_delete_of_mem_cleanup hpart
      rfl

/-- Flattening keeps, in their order, all marks of statements other than those of blocks and
deletions. -/
lemma IsJumpCode.flatMap_flat {α : Type} {mark : Stmt → List α}
    (hblock : ∀ stmts, mark (.block stmts) = []) (hdelete : ∀ var, mark (.delete var) = [])
    (h : IsJumpCode stmt) : stmt.flat.flatMap mark = stmt.parts.flatMap mark := by
  induction h with
  | lowered h => rw [flat_of_isLowered h, parts_of_isLowered h]
  | @block stmts h ih =>
    have hcleanup : (cleanup stmts).flatMap mark = [] := by
      rw [flatMap_eq_nil_iff]
      intro part hpart
      obtain ⟨var, -, rfl, -⟩ := exists_delete_of_mem_cleanup hpart
      exact hdelete var
    rw [flat_block, parts_block, flatMap_append, hcleanup, append_nil,
      flatMap_cons, hblock, nil_append, flatMap_assoc, flatMap_assoc]
    exact flatMap_congr ih

end Parcel.Code
