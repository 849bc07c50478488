import Mathlib.Logic.Relation
import Parcel.Code.Lowering
import Parcel.Proofs.Code.Flat

/-!
# What flattening gives

Flattening opens blocks from a worklist. The order in which it does so does not show in the result,
which is given by a recursion over the statement: what is no block is left as it is, and a block
becomes what its statements become, followed by a deletion of each variable that it has declared and
not deleted itself. In a list that is the result of this every variable is deleted, so flattening it
again changes nothing.

## Main results

* `Code.isFlattening_flatten`, `Code.IsFlattening.eq_flatten` — flattening is the only
  function that the recursion holds of.
* `Code.Round.wellFounded`, `Code.Round.flattened_eq` — the worklist comes to an end, and
  each round keeps what it leads to.
* `Code.flatten_by_recursion` — all of this for one statement at the start.
* `Code.flatten_block_idempotent` — what has been flattened gains no further deletions.
-/

namespace Parcel.Code

open List

variable {stmts : List Stmt} {id : VarId} (stmt : Stmt)

/-! ### The end of a block -/

/-- Whether one of the statements deletes a variable. -/
def deletes (stmts : List Stmt) (id : VarId) : Bool :=
  stmts.any fun
    | .delete v => v.id = id
    | _ => false

/-- The variables that statements declare and do not delete, the last one first. -/
def undeleted (stmts : List Stmt) : List Var :=
  ((stmts.filterMap declared?).filter fun v => !deletes stmts v.id).reverse

lemma deletes_eq_true_iff : deletes stmts id = true ↔ ∃ v, .delete v ∈ stmts ∧ v.id = id := by
  rw [deletes, any_eq_true]
  constructor
  · rintro ⟨stmt, hstmt, hid⟩
    cases stmt with
    | delete v => exact ⟨v, hstmt, of_decide_eq_true hid⟩
    | _ => cases hid
  · rintro ⟨v, hv, hid⟩
    exact ⟨.delete v, hv, decide_eq_true hid⟩

lemma mem_deletedIds_iff : id ∈ deletedIds stmts ↔ deletes stmts id = true := by
  rw [deletes_eq_true_iff, deletedIds, mem_filterMap]
  constructor
  · rintro ⟨stmt, hstmt, hid⟩
    cases stmt with
    | delete v => exact ⟨v, hstmt, Option.some.inj hid⟩
    | _ => cases hid
  · rintro ⟨v, hv, rfl⟩
    exact ⟨.delete v, hv, rfl⟩

/-- A block deletes the variables that it still has at its end. -/
lemma cleanup_eq_map_undeleted (stmts : List Stmt) :
    cleanup stmts = (undeleted stmts).map .delete := by
  have hdeletion (stmt : Stmt) : deletionFor? (deletedIds stmts) stmt =
      ((declared? stmt).filter fun v => !deletes stmts v.id).map .delete := by
    cases stmt with
    | declare v =>
      simp only [deletionFor?, declared?, Option.filter_some, mem_deletedIds_iff]
      cases deletes stmts v.id <;> rfl
    | _ => rfl
  rw [cleanup, funext hdeletion, undeleted, filter_filterMap, ← filterMap_reverse,
    map_filterMap]

lemma undeleted_eq_nil_iff : undeleted stmts = [] ↔
    ∀ v initializer, .declare v initializer ∈ stmts → ∃ w, .delete w ∈ stmts ∧ w.id = v.id := by
  rw [undeleted, reverse_eq_nil_iff, filter_eq_nil_iff]
  constructor
  · intro h v initializer hv
    have hmem : v ∈ stmts.filterMap declared? := mem_filterMap.mpr ⟨_, hv, rfl⟩
    exact deletes_eq_true_iff.mp (by simpa using h v hmem)
  · intro h v hv
    obtain ⟨stmt, hstmt, hdeclared⟩ := mem_filterMap.mp hv
    cases stmt with
    | declare w initializer =>
      obtain rfl := Option.some.inj hdeclared
      simpa using deletes_eq_true_iff.mpr (h w initializer hstmt)
    | _ => cases hdeclared

/-! ### The recursion -/

/-- What is no block is left as it is, and a block becomes what its statements become, followed by
deletions of the variables that it still has. -/
structure IsFlattening (f : Stmt → List Stmt) : Prop where
  leaf : ∀ stmt, (∀ stmts, stmt ≠ .block stmts) → f stmt = [stmt]
  block : ∀ stmts, f (.block stmts) = stmts.flatMap f ++ (undeleted stmts).map .delete

lemma isFlattening_flatten : IsFlattening flatten := by
  rw [funext flatten_eq_flat]
  exact ⟨fun _ => flat_of_ne_block, fun stmts => by rw [flat_block, cleanup_eq_map_undeleted]⟩

/-- Induction over statements through blocks only. -/
lemma Stmt.blocks {P : Stmt → Prop} (leaf : ∀ stmt, (∀ stmts, stmt ≠ .block stmts) → P stmt)
    (block : ∀ stmts, (∀ stmt ∈ stmts, P stmt) → P (.block stmts)) (stmt : Stmt) : P stmt := by
  induction stmt using Stmt.structural with
  | block stmts ih => exact block stmts ih
  | _ => exact leaf _ fun _ => Stmt.noConfusion

/-- The recursion holds of no other function. -/
lemma IsFlattening.eq_flatten {f : Stmt → List Stmt} (h : IsFlattening f) : f = flatten := by
  funext stmt
  induction stmt using Stmt.blocks with
  | leaf stmt hstmt => rw [h.leaf stmt hstmt, isFlattening_flatten.leaf stmt hstmt]
  | block stmts ih =>
    rw [h.block, isFlattening_flatten.block, flatMap_congr ih]

/-! ### The worklist -/

/-- What is finished, the last statement first, and what is still to be opened. -/
structure Worklist where
  done : List Stmt
  pending : List Stmt

/-- One round of the worklist: the first statement to be opened is a block and is replaced by what
is in it, or it is finished. -/
inductive Round : Worklist → Worklist → Prop
  | opened (done stmts pending : List Stmt) :
    Round ⟨done, .block stmts :: pending⟩ ⟨done, stmts ++ cleanup stmts ++ pending⟩
  | finished (done : List Stmt) {stmt : Stmt} (pending : List Stmt)
    (h : ∀ stmts, stmt ≠ .block stmts) : Round ⟨done, stmt :: pending⟩ ⟨stmt :: done, pending⟩

/-- What the worklist leads to. -/
def Worklist.flattened (w : Worklist) : List Stmt :=
  w.done.reverse ++ w.pending.flatMap flatten

namespace Round

variable {w w' : Worklist}

lemma flattenFrom_eq (h : Round w w') :
    flattenFrom w.done w.pending = flattenFrom w'.done w'.pending := by
  cases h with
  | opened => rw [flattenFrom]
  | finished done pending hstmt => rw [flattenFrom.eq_3 _ _ _ hstmt]

/-- A round keeps what the worklist leads to. -/
lemma flattened_eq (h : Round w w') : w.flattened = w'.flattened := by
  have hrounds := h.flattenFrom_eq
  rw [Code.flattenFrom_eq, Code.flattenFrom_eq, ← funext flatten_eq_flat] at hrounds
  exact hrounds

/-- A round leaves less to be done. -/
lemma pendingCost_lt (h : Round w w') : pendingCost w'.pending < pendingCost w.pending := by
  cases h with
  | opened done stmts =>
    have hcleanup := pendingCost_cleanup_le stmts
    have hopened := openedCost_eq stmts
    simp only [pendingCost_append, pendingCost, Stmt.cost]
    omega
  | @finished done stmt pending hstmt =>
    have := cost_pos stmt
    simp only [pendingCost]
    omega

/-- **The worklist comes to an end**, wherever it starts. -/
theorem wellFounded : WellFounded fun after before => Round before after :=
  Subrelation.wf pendingCost_lt (measure fun w : Worklist => pendingCost w.pending).wf

/-- There is another round unless nothing is left. -/
lemma exists_of_pending (w : Worklist) : w.pending = [] ∨ ∃ w', Round w w' := by
  obtain ⟨done, pending⟩ := w
  cases pending with
  | nil => exact .inl rfl
  | cons stmt pending =>
    by_cases h : ∃ stmts, stmt = .block stmts
    · obtain ⟨stmts, rfl⟩ := h
      exact .inr ⟨_, .opened done stmts pending⟩
    · exact .inr ⟨_, .finished done pending (not_exists.mp h)⟩

/-- All rounds keep what the worklist leads to. -/
lemma flattened_eq_of_rounds (h : Relation.ReflTransGen Round w w') :
    w.flattened = w'.flattened := by
  induction h with
  | refl => rfl
  | tail _ hround ih => exact ih.trans hround.flattened_eq

end Round

/-! ### Leaves -/

mutual

/-- The statements in a statement that are reached through blocks only. -/
def Stmt.leaves : Stmt → List Stmt
  | .block stmts => leavesAll stmts
  | stmt => [stmt]

/-- The same for several statements. -/
def leavesAll : List Stmt → List Stmt
  | [] => []
  | stmt :: stmts => stmt.leaves ++ leavesAll stmts

end

/-- Whether a statement deletes a variable. -/
def Stmt.isDelete : Stmt → Bool
  | .delete _ => true
  | _ => false

lemma leavesAll_eq_flatMap (stmts : List Stmt) :
    leavesAll stmts = stmts.flatMap Stmt.leaves := by
  induction stmts with
  | nil => rfl
  | cons stmt stmts ih => rw [leavesAll, ih, flatMap_cons]

lemma leaves_of_ne_block {stmt : Stmt} (h : ∀ stmts, stmt ≠ .block stmts) :
    stmt.leaves = [stmt] := by
  cases stmt with
  | block stmts => exact absurd rfl (h stmts)
  | _ => rfl

lemma ne_block_of_mem_flatten : ∀ part ∈ flatten stmt, ∀ stmts, part ≠ .block stmts := by
  induction stmt using Stmt.blocks with
  | leaf stmt hstmt =>
    rw [isFlattening_flatten.leaf stmt hstmt]
    exact forall_mem_singleton.mpr hstmt
  | block stmts ih =>
    rw [isFlattening_flatten.block]
    intro part hpart
    rcases mem_append.mp hpart with hpart | hpart
    · obtain ⟨stmt, hstmt, hpart⟩ := mem_flatMap.mp hpart
      exact ih stmt hstmt part hpart
    · obtain ⟨v, -, rfl⟩ := mem_map.mp hpart
      exact fun _ => Stmt.noConfusion

/-- The leaves keep their order. -/
lemma leaves_sublist_flatten : stmt.leaves.Sublist (flatten stmt) := by
  induction stmt using Stmt.blocks with
  | leaf stmt hstmt => rw [leaves_of_ne_block hstmt, isFlattening_flatten.leaf stmt hstmt]
  | block stmts ih =>
    rw [isFlattening_flatten.block, Stmt.leaves, leavesAll_eq_flatMap]
    refine List.Sublist.trans ?_ (sublist_append_left _ _)
    induction stmts with
    | nil => exact .slnil
    | cons stmt stmts ihs =>
      obtain ⟨hstmt, hstmts⟩ := forall_mem_cons.mp ih
      exact hstmt.append (ihs hstmts)

lemma filter_flatten : (flatten stmt).filter (!·.isDelete) = stmt.leaves.filter (!·.isDelete) := by
  induction stmt using Stmt.blocks with
  | leaf stmt hstmt => rw [leaves_of_ne_block hstmt, isFlattening_flatten.leaf stmt hstmt]
  | block stmts ih =>
    have hdeletions : ((undeleted stmts).map Stmt.delete).filter (!·.isDelete) = [] := by
      rw [filter_eq_nil_iff, forall_mem_map]
      intro v _ hv
      cases hv
    rw [isFlattening_flatten.block, filter_append, hdeletions, append_nil, Stmt.leaves,
      leavesAll_eq_flatMap, filter_flatMap, filter_flatMap]
    exact flatMap_congr ih

/-! ### Flattening -/

/-- **Flattening is the recursion over the statement.** Flattening is the only function of which the
recursion holds. The worklist comes to an end wherever it starts; from one statement it ends when
nothing is left to be opened, with what flattening gives. No block is left, and the statements that
were reached through blocks are there in their order, with nothing but deletions between them. -/
theorem flatten_by_recursion :
    (∀ f, f = flatten ↔ IsFlattening f) ∧
      WellFounded (fun after before => Round before after) ∧
      ∀ stmt,
        (∀ w, Relation.ReflTransGen Round ⟨[], [stmt]⟩ w → (∀ w', ¬ Round w w') →
          w = ⟨(flatten stmt).reverse, []⟩) ∧
        (∀ part ∈ flatten stmt, ∀ stmts, part ≠ .block stmts) ∧
        stmt.leaves.Sublist (flatten stmt) ∧
        (flatten stmt).filter (!·.isDelete) = stmt.leaves.filter (!·.isDelete) := by
  refine ⟨fun f => ⟨?_, IsFlattening.eq_flatten⟩, Round.wellFounded, fun stmt =>
    ⟨fun w hrounds hlast => ?_, ne_block_of_mem_flatten stmt, leaves_sublist_flatten stmt,
      filter_flatten stmt⟩⟩
  · rintro rfl
    exact isFlattening_flatten
  · have hkept := Round.flattened_eq_of_rounds hrounds
    obtain ⟨done, pending⟩ := w
    obtain rfl : pending = [] :=
      (Round.exists_of_pending ⟨done, pending⟩).resolve_right (not_exists.mpr hlast)
    simp only [Worklist.flattened, reverse_nil, nil_append, flatMap_cons,
      flatMap_nil, append_nil] at hkept
    rw [hkept, reverse_reverse]

/-- A block in a block: the inner one deletes one of its two variables itself. -/
def nestedBlocks : Stmt :=
  let named (id : Nat) (name : String) : Var := ⟨⟨id⟩, name, .int, .local⟩
  .block [.declare (named 0 "a") none,
    .block [.declare (named 1 "b") none, .declare (named 2 "c") none, .delete (named 1 "b"),
      .declare (named 3 "d") none],
    .goto ⟨0⟩]

theorem flatten_nestedBlocks :
    let named (id : Nat) (name : String) : Var := ⟨⟨id⟩, name, .int, .local⟩
    let flat : List Stmt := [.declare (named 0 "a") none, .declare (named 1 "b") none,
      .declare (named 2 "c") none, .delete (named 1 "b"), .declare (named 3 "d") none,
      .delete (named 3 "d"), .delete (named 2 "c"), .goto ⟨0⟩, .delete (named 0 "a")]
    Relation.ReflTransGen Round ⟨[], [nestedBlocks]⟩ ⟨flat.reverse, []⟩ ∧ flatten nestedBlocks = flat := by
  intro named flat
  have leaf {stmt : Stmt} {done pending : List Stmt} (h : stmt.isLowered = true) :
      Round ⟨done, stmt :: pending⟩ ⟨stmt :: done, pending⟩ := by
    refine .finished done pending fun stmts hblock => ?_
    rw [hblock] at h
    cases h
  have hrounds : Relation.ReflTransGen Round ⟨[], [nestedBlocks]⟩ ⟨flat.reverse, []⟩ :=
    .head (.opened ..) <| .head (leaf rfl) <| .head (.opened ..) <| .head (leaf rfl) <|
      .head (leaf rfl) <| .head (leaf rfl) <| .head (leaf rfl) <| .head (leaf rfl) <|
      .head (leaf rfl) <| .head (leaf rfl) <| .single (leaf rfl)
  have hlast : ∀ w', ¬ Round ⟨flat.reverse, []⟩ w' := by
    rintro w' ⟨⟩
  have hend := (flatten_by_recursion.2.2 nestedBlocks).1 _ hrounds hlast
  exact ⟨hrounds, reverse_injective (congrArg Worklist.done hend).symm⟩

/-! ### Flattening again -/

lemma flatten_block_of_ne_block (h : ∀ stmt ∈ stmts, ∀ stmts', stmt ≠ .block stmts') :
    flatten (.block stmts) = stmts ++ (undeleted stmts).map .delete := by
  have hflat : ∀ stmt ∈ stmts, flatten stmt = [stmt] := fun stmt hstmt =>
    isFlattening_flatten.leaf stmt (h stmt hstmt)
  rw [isFlattening_flatten.block, flatMap_congr hflat, flatMap_singleton']

/-- Each variable that is declared in a block, at whatever depth, is deleted in what the block
becomes: by the block around the declaration itself, or at the end of that block. -/
lemma exists_delete_of_mem_flatten :
    ∀ stmts, stmt = .block stmts → ∀ v initializer, .declare v initializer ∈ flatten stmt →
      ∃ w, .delete w ∈ flatten stmt ∧ w.id = v.id := by
  induction stmt using Stmt.blocks with
  | leaf stmt hstmt => exact fun stmts heq => absurd heq (hstmt stmts)
  | block stmts ih =>
    intro _ _ v initializer hv
    rw [isFlattening_flatten.block] at hv ⊢
    rcases mem_append.mp hv with hv | hv
    · obtain ⟨stmt, hstmt, hv⟩ := mem_flatMap.mp hv
      by_cases hblock : ∃ inner, stmt = .block inner
      · obtain ⟨inner, hinner⟩ := hblock
        obtain ⟨w, hw, hid⟩ := ih stmt hstmt inner hinner v initializer hv
        exact ⟨w, mem_append_left _ (mem_flatMap.mpr ⟨stmt, hstmt, hw⟩), hid⟩
      -- the declaration stands in the block itself
      · rw [isFlattening_flatten.leaf stmt (not_exists.mp hblock), mem_singleton] at hv
        cases hdeletes : deletes stmts v.id with
        | true =>
          obtain ⟨w, hw, hid⟩ := deletes_eq_true_iff.mp hdeletes
          have hflat : flatten (.delete w) = [.delete w] :=
            isFlattening_flatten.leaf _ fun _ => Stmt.noConfusion
          refine ⟨w, mem_append_left _ (mem_flatMap.mpr ⟨_, hw, ?_⟩), hid⟩
          rw [hflat, mem_singleton]
        | false =>
          have hmem : v ∈ undeleted stmts := by
            rw [undeleted, mem_reverse, mem_filter]
            exact ⟨mem_filterMap.mpr ⟨stmt, hstmt, hv ▸ rfl⟩, by rw [hdeletes]; rfl⟩
          exact ⟨v, mem_append_right _ (mem_map_of_mem hmem), rfl⟩
    · obtain ⟨w, -, hw⟩ := mem_map.mp hv
      cases hw

/-- **What has been flattened gains no further deletions.** Whatever a block is made of, what it
becomes has deleted all variables that are declared in it, and stays the same when it is flattened
again. -/
theorem flatten_block_idempotent (stmts : List Stmt) :
    undeleted (flatten (.block stmts)) = [] ∧
      flatten (.block (flatten (.block stmts))) = flatten (.block stmts) := by
  have hnone : undeleted (flatten (.block stmts)) = [] :=
    undeleted_eq_nil_iff.mpr (exists_delete_of_mem_flatten (.block stmts) stmts rfl)
  refine ⟨hnone, ?_⟩
  rw [flatten_block_of_ne_block (ne_block_of_mem_flatten (.block stmts)), hnone, map_nil,
    append_nil]

end Parcel.Code
