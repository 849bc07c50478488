import Parcel.Proofs.Code.Scoped

/-!
# The layout of jump code

The flat code of each form of jump code, with the flat code of the statements inside and with the
deletions of the variables that they declare for those after them.
-/

namespace Parcel.Code

open List

variable {stmt : Stmt} {stmts : List Stmt}

/-- The statement is not a deletion. -/
def Stmt.Keeps : Stmt → Prop
  | .delete _ => False
  | _ => True

lemma Structured.keeps {loops : Option LoopLabels} (h : Structured loops stmt) : stmt.Keeps := by
  cases h <;> exact trivial

/-- The deletions of variables, the last one first. -/
def deletions (vars : List Var) : List Stmt :=
  vars.reverse.map .delete

@[simp] lemma length_deletions (vars : List Var) : (deletions vars).length = vars.length := by
  rw [deletions, length_map, length_reverse]

lemma filterMap_deletionFor? (stmts : List Stmt) :
    stmts.filterMap (deletionFor? []) = (stmts.flatMap Stmt.own).map .delete := by
  induction stmts with
  | nil => rfl
  | cons stmt stmts ih =>
    cases stmt
    case declare var initializer =>
      have hdeletion : deletionFor? [] (.declare var initializer) = some (.delete var) := rfl
      rw [filterMap_cons_some hdeletion, ih]
      rfl
    all_goals
      rw [filterMap_cons_none rfl, ih]
      rfl

lemma cleanup_eq (h : ∀ stmt ∈ stmts, stmt.Keeps) :
    cleanup stmts = deletions (stmts.flatMap Stmt.own) := by
  have hdeleted : deletedIds stmts = [] := by
    rw [deletedIds, filterMap_eq_nil_iff]
    intro stmt hstmt
    cases stmt
    case delete v => exact (h _ hstmt).elim
    all_goals rfl
  rw [cleanup, hdeleted, filterMap_reverse, filterMap_deletionFor?, deletions,
    map_reverse]

lemma flat_block_of_keeps (h : ∀ stmt ∈ stmts, stmt.Keeps) :
    (Stmt.block stmts).flat = stmts.flatMap Stmt.flat ++ deletions (stmts.flatMap Stmt.own) := by
  rw [flat_block, cleanup_eq h]

variable {body first second initial action : Stmt} {condition : Expr} {labels : LoopLabels}
  {inner otherwise done start test : Label}

lemma flat_ifCode (h : body.Keeps) : (ifCode inner done condition body).flat =
    [Stmt.gotoIf condition inner, .goto done, .label inner] ++ body.flat ++ [Stmt.label done] ++
      deletions body.own := by
  rw [ifCode, flat_block_of_keeps]
  · simp [Stmt.flat, Stmt.own, declared?]
  · simpa [Stmt.Keeps] using h

lemma flat_ifElseCode (h₁ : first.Keeps) (h₂ : second.Keeps) :
    (ifElseCode inner otherwise done condition first second).flat =
    [Stmt.gotoIf condition inner, .goto otherwise, .label inner] ++ first.flat ++
      [Stmt.goto done, .label otherwise] ++ second.flat ++ [Stmt.label done] ++
      deletions (first.own ++ second.own) := by
  rw [ifElseCode, flat_block_of_keeps]
  · simp [Stmt.flat, Stmt.own, declared?]
  · simpa [Stmt.Keeps] using ⟨h₁, h₂⟩

lemma flat_whileCode (h : body.Keeps) : (whileCode start condition body labels).flat =
    [Stmt.goto labels.onContinue, .label start] ++ body.flat ++
      [Stmt.label labels.onContinue, .gotoIf condition start, .label labels.onBreak] ++
      deletions body.own := by
  rw [whileCode, flat_block_of_keeps]
  · simp [Stmt.flat, Stmt.own, declared?]
  · simpa [Stmt.Keeps] using h

lemma cleanup_for (h : initial.Keeps) (rounds : Stmt) (hrounds : rounds = .block stmts) :
    cleanup ([initial, rounds] ++ ((declared? initial).map Stmt.delete).toList) = [] := by
  subst hrounds
  cases initial
  case declare var initializer => simp [cleanup, deletedIds, deletionFor?, declared?]
  case delete var => exact h.elim
  all_goals rfl

lemma flat_forCode (hi : initial.Keeps) (ha : action.Keeps) (hb : body.Keeps) :
    (forCode test start initial condition action body labels (declared? initial)).flat =
    initial.flat ++ [Stmt.goto test, .label start] ++ body.flat ++ [Stmt.label labels.onContinue] ++
      action.flat ++ deletions (body.own ++ action.own) ++
      [Stmt.label test, .gotoIf condition start, .label labels.onBreak] ++
      deletions initial.own := by
  have hround : (Stmt.block [body, .label labels.onContinue, action]).flat = body.flat ++
      [Stmt.label labels.onContinue] ++ action.flat ++ deletions (body.own ++ action.own) := by
    rw [flat_block_of_keeps]
    · simp [Stmt.flat, Stmt.own, declared?]
    · simpa [Stmt.Keeps] using ⟨hb, ha⟩
  have hdeclared : (((declared? initial).map Stmt.delete).toList).flatMap Stmt.flat =
      deletions initial.own := by
    rw [Stmt.own]
    cases declared? initial with
    | none | some => rfl
  have hrounds : (whileCode start condition (.block [body, .label labels.onContinue, action])
      ⟨labels.onBreak, test⟩).flat = [Stmt.goto test, .label start] ++ (body.flat ++
      [Stmt.label labels.onContinue] ++ action.flat ++ deletions (body.own ++ action.own)) ++
      [Stmt.label test, .gotoIf condition start, .label labels.onBreak] := by
    rw [flat_whileCode, hround]
    · simp [Stmt.own, declared?, deletions]
    · trivial
  rw [forCode, flat_block, cleanup_for hi (whileCode _ _ _ _) rfl, flatMap_append, hdeclared,
    flatMap_cons, flatMap_cons, flatMap_nil, hrounds]
  simp only [append_assoc, append_nil]

lemma flat_countingCode {bound iterator : Var} {lower upper : Expr} (h : body.Keeps) :
    (countingCode bound test start iterator lower upper body labels).flat =
    [Stmt.declare bound (some upper), .declare iterator (some lower), .goto test, .label start] ++
      body.flat ++ [Stmt.label labels.onContinue, .approach iterator bound] ++ deletions body.own ++
      [Stmt.label test, .gotoIf (.binary (.name iterator lower.span) .ne (.name bound upper.span)
        .bool (lower.span.merge upper.span)) start, .label labels.onBreak, .delete iterator,
        .delete bound] := by
  have hfor := @flat_forCode body (.declare iterator (some lower)) (.approach iterator bound)
    (.binary (.name iterator lower.span) .ne (.name bound upper.span) .bool
      (lower.span.merge upper.span)) labels start test trivial trivial h
  have hcleanup (rounds : Stmt) {stmts : List Stmt} (hrounds : rounds = .block stmts) :
      cleanup [.declare bound (some upper), rounds, .delete bound] = [] := by
    subst hrounds
    simp [cleanup, deletedIds, deletionFor?]
  rw [countingCode, flat_block, hcleanup (forCode _ _ _ _ _ _ _ _) rfl, flatMap_cons,
    flatMap_cons]
  rw [declared?] at hfor
  rw [hfor]
  simp [Stmt.flat, Stmt.own, declared?, deletions]

/-! ### Positions -/

/-- The code holds these statements from a position on. -/
def StandsAt (code : Array Stmt) (p : Nat) (stmts : List Stmt) : Prop :=
  ∀ i, i < stmts.length → code[p + i]? = stmts[i]?

section StandsAt

variable {code : Array Stmt} {p : Nat}

@[simp] lemma standsAt_nil : StandsAt code p [] :=
  fun _ hi => absurd hi (Nat.not_lt_zero _)

@[simp] lemma standsAt_cons :
    StandsAt code p (stmt :: stmts) ↔ code[p]? = some stmt ∧ StandsAt code (p + 1) stmts := by
  constructor
  · intro h
    refine ⟨h 0 (Nat.succ_pos _), fun i hi => ?_⟩
    have hnext := h (i + 1) (Nat.succ_lt_succ hi)
    rwa [Nat.add_comm i 1, ← Nat.add_assoc, Nat.add_comm 1 i, getElem?_cons_succ] at hnext
  · rintro ⟨hfirst, hrest⟩ i hi
    cases i with
    | zero => exact hfirst
    | succ i =>
      have hnext := hrest i (Nat.lt_of_succ_lt_succ hi)
      rwa [getElem?_cons_succ, Nat.add_comm i 1, ← Nat.add_assoc]

@[simp] lemma standsAt_append {first second : List Stmt} : StandsAt code p (first ++ second) ↔
    StandsAt code p first ∧ StandsAt code (p + first.length) second := by
  induction first generalizing p with
  | nil => simp
  | cons stmt first ih =>
    rw [cons_append, standsAt_cons, standsAt_cons, ih, length_cons, and_assoc,
      Nat.add_assoc p 1, Nat.add_comm 1]

lemma exists_standsAt_of_infix {all : List Stmt} (h : stmts <:+: all) :
    ∃ p, StandsAt all.toArray p stmts := by
  obtain ⟨before, after, rfl⟩ := h
  refine ⟨before.length, fun i hi => ?_⟩
  rw [getElem?_toArray, append_assoc, getElem?_append_right (Nat.le_add_right _ _),
    Nat.add_sub_cancel_left, getElem?_append_left hi]

end StandsAt

end Parcel.Code
