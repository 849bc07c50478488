import Parcel.Proofs.Machine.Triple

/-!
# Runs of code, step by step

Where the labels of a body are, and what one step of a run is.
-/

namespace Parcel

open Code

variable {label : Label} {stmt : Stmt} {i : Nat}

/-! ### Positions of labels -/

lemma getElem?_note_label (positions : LabelPositions) (label : Label) (p : Nat) :
    (positions.note (.label label, p))[label.index]? = some p := by
  simp [LabelPositions.note]

lemma getElem?_note_of_ne (positions : LabelPositions) (h : stmt ≠ .label ⟨i⟩) (p : Nat) :
    (positions.note (stmt, p))[i]? = positions[i]? := by
  cases stmt with
  | label label =>
    have hne : label.index ≠ i := fun heq => h (heq ▸ rfl)
    simp [LabelPositions.note, Std.TreeMap.getElem?_insert, hne]
  | _ => rfl

lemma getElem?_foldl_note_of_not_mem (stmts : List Stmt) (h : Stmt.label ⟨i⟩ ∉ stmts)
    (positions : LabelPositions) (first : Nat) :
    ((stmts.zipIdx first).foldl LabelPositions.note positions)[i]? = positions[i]? := by
  induction stmts generalizing positions first with
  | nil => rfl
  | cons stmt stmts ih =>
    rw [List.zipIdx_cons, List.foldl_cons, ih fun hmem => h (List.mem_cons_of_mem _ hmem)]
    exact getElem?_note_of_ne positions (fun heq => h (heq ▸ List.mem_cons_self)) first

lemma getElem?_foldl_note_of_mem (stmts : List Stmt) (h : Stmt.label ⟨i⟩ ∈ stmts)
    (positions : LabelPositions) (first : Nat) : ∃ j, stmts[j]? = some (.label ⟨i⟩) ∧
      ((stmts.zipIdx first).foldl LabelPositions.note positions)[i]? = some (first + j) := by
  induction stmts generalizing positions first with
  | nil => cases h
  | cons stmt stmts ih =>
    rw [List.zipIdx_cons, List.foldl_cons]
    by_cases hrest : Stmt.label ⟨i⟩ ∈ stmts
    · obtain ⟨j, hj, hpos⟩ := ih hrest (positions.note (stmt, first)) (first + 1)
      refine ⟨j + 1, hj, hpos.trans ?_⟩
      rw [Nat.add_right_comm, Nat.add_assoc]
    · obtain rfl := (List.mem_cons.mp h).resolve_right hrest
      refine ⟨0, rfl, ?_⟩
      rw [getElem?_foldl_note_of_not_mem stmts hrest]
      exact getElem?_note_label positions ⟨i⟩ first

/-- **A label that is placed in a body is found** at one of its places. -/
theorem position_of_label {code : Array Stmt} (h : Stmt.label label ∈ code.toList) :
    ∃ p, code[p]? = some (.label label) ∧ (labelPositions code)[label.index]? = some p := by
  obtain ⟨j, hj, hpos⟩ := getElem?_foldl_note_of_mem code.toList h ∅ 0
  refine ⟨j, ?_, ?_⟩
  · rwa [Array.getElem?_toList] at hj
  · rwa [Nat.zero_add] at hpos

/-! ### Steps -/

section Steps

variable {m : Machine} {fuel : Nat} {code : Array Stmt} {s : State} {frame : Frame}
  {tail : List Frame}

lemma top?_of_frames (h : s.stack.frames = frame :: tail) : s.stack.top? = some frame := by
  rw [Stack.top?, h]
  rfl

lemma holds_of_frames (h : s.stack.frames = frame :: tail) (v : Var) : s.holds v = true := by
  rw [State.holds, top?_of_frames h, Option.isSome_some, Bool.or_true]

lemma jump_of_frames {q : Nat} (h : s.stack.frames = frame :: tail)
    (hfound : frame.position? label = some q) : jump label s = .ok q s := by
  have htop : s.stack.top?.bind (·.position? label) = some q := by
    rw [top?_of_frames h, Option.bind_some, hfound]
  rw [jump, exec_bind_ok (get_run s), htop]
  rfl

lemma value?_of_frames {v : Var} (h : s.stack.frames = frame :: tail)
    (hlocal : v.isGlobal = false) : s.value? v = frame.locals.get? v.id := by
  rw [State.value?, hlocal, if_neg Bool.false_ne_true, top?_of_frames h, Option.bind_some]

lemma runCode_returned (h : s.stack.frames = frame :: tail) (hreturned : frame.returned = true) :
    runCode m (fuel + 1) code s = .ok () s := by
  rw [runCode, exec_bind_ok (get_run s), top?_of_frames h]
  dsimp only
  rw [if_pos hreturned]
  rfl

/-- A call ends after the last statement. -/
lemma runCode_end (h : s.stack.frames = frame :: tail) (hreturned : frame.returned = false)
    (hend : code[frame.position]? = none) : runCode m (fuel + 1) code s = .ok () s := by
  rw [runCode, exec_bind_ok (get_run s), top?_of_frames h]
  dsimp only
  rw [hreturned, hend]
  rfl

/-- Where a run goes on after a statement. -/
def proceed (m : Machine) (fuel : Nat) (code : Array Stmt) (position : Nat)
    (jumped : Option Nat) : Exec Unit := do
  Exec.modifyFrame fun frame => { frame with position := jumped.getD (position + 1) }
  runCode m fuel code

lemma runCode_step (h : s.stack.frames = frame :: tail) (hreturned : frame.returned = false)
    (hstmt : code[frame.position]? = some stmt) : runCode m (fuel + 1) code s =
      (execute m (callWith m (runCode m fuel)) stmt >>= proceed m fuel code frame.position) s := by
  rw [runCode, exec_bind_ok (get_run s), top?_of_frames h]
  dsimp only
  rw [hreturned, hstmt]
  rfl

end Steps

end Parcel
