import Mathlib.Data.List.Count
import Mathlib.Tactic.SplitIfs
import Parcel.Proofs.Code.Lowering

/-!
# The labels and variables of lowered code

Every label and every variable of lowered code is one of the statement it comes from or a fresh one.
How often each of them occurs is counted, so that what is introduced once stays introduced once.
-/

namespace Parcel

open List

/-- One if a number is in a range, which counts how often a fresh index is taken there. -/
def within (first last n : Nat) : Nat :=
  if first ≤ n ∧ n < last then 1 else 0

lemma within_le_one (first last n : Nat) : within first last n ≤ 1 := by
  unfold within
  split <;> omega

lemma within_self (first n : Nat) : within first first n = 0 := by
  unfold within
  split <;> omega

/-- What occurs no more often than a range has its number has it in the range. -/
lemma mem_range_of_count_le {α : Type} [DecidableEq α] {l : List α} {a : α} (ha : a ∈ l)
    {first last n : Nat} (h : l.count a ≤ within first last n) : first ≤ n ∧ n < last := by
  have hpos : 0 < within first last n := Nat.lt_of_lt_of_le (count_pos_iff.mpr ha) h
  unfold within at hpos
  split at hpos <;> omega

lemma within_add {first middle last : Nat} (h₁ : first ≤ middle) (h₂ : middle ≤ last) (n : Nat) :
    within first middle n + within middle last n = within first last n := by
  unfold within
  split_ifs <;> omega

namespace Code

/-! ### Marks of statements -/

/-- The labels that a statement places itself: a loop places those of its ends. -/
def Stmt.ownLabels : Stmt → List Label
  | .label place => [place]
  | .whileLoop _ _ labels | .forLoop _ _ _ _ labels | .fromTo _ _ _ _ labels
  | .loop _ _ _ labels => [labels.onBreak, labels.onContinue]
  | _ => []

/-- The variables that a statement introduces itself. -/
def Stmt.ownVars : Stmt → List Var
  | .declare var _ => [var]
  | .fromTo iterator _ _ _ _ | .loop iterator _ _ _ => [iterator]
  | _ => []

/-- The labels that a statement jumps to itself. -/
def Stmt.ownTargets : Stmt → List Label
  | .goto target | .gotoIf _ target => [target]
  | _ => []

/-- The labels that a statement places, those of its loops included. -/
def Stmt.labels (stmt : Stmt) : List Label :=
  stmt.parts.flatMap Stmt.ownLabels

/-- The variables that a statement introduces, the iterators of its loops included. -/
def Stmt.vars (stmt : Stmt) : List Var :=
  stmt.parts.flatMap Stmt.ownVars

/-- The labels that a statement jumps to. -/
def Stmt.targets (stmt : Stmt) : List Label :=
  stmt.parts.flatMap Stmt.ownTargets

lemma flatMap_parts_block {α : Type} {mark : Stmt → List α}
    (hblock : ∀ stmts, mark (.block stmts) = []) (stmts : List Stmt) :
    (Stmt.block stmts).parts.flatMap mark = stmts.flatMap fun stmt => stmt.parts.flatMap mark := by
  rw [parts_block, flatMap_cons, hblock, nil_append, flatMap_assoc]

variable (stmts : List Stmt)

@[simp, grind =] lemma labels_block : (Stmt.block stmts).labels = stmts.flatMap Stmt.labels :=
  flatMap_parts_block (fun _ => rfl) stmts

@[simp, grind =] lemma vars_block : (Stmt.block stmts).vars = stmts.flatMap Stmt.vars :=
  flatMap_parts_block (fun _ => rfl) stmts

@[simp, grind =] lemma targets_block : (Stmt.block stmts).targets = stmts.flatMap Stmt.targets :=
  flatMap_parts_block (fun _ => rfl) stmts

/-- The ids of the variables that a statement introduces. -/
def Stmt.varIds (stmt : Stmt) : List VarId :=
  stmt.vars.map (·.id)

@[simp, grind =] lemma varIds_block : (Stmt.block stmts).varIds = stmts.flatMap Stmt.varIds := by
  rw [Stmt.varIds, vars_block, map_flatMap]
  rfl

lemma marks_of_isLowered {stmt : Stmt} (h : stmt.isLowered = true) :
    stmt.labels = stmt.ownLabels ∧ stmt.vars = stmt.ownVars ∧ stmt.targets = stmt.ownTargets := by
  simp [Stmt.labels, Stmt.vars, Stmt.targets, parts_of_isLowered h]

/-! ### Marks of jump code -/

section JumpCode

variable (start test inner otherwise done : Label) (condition lower upper : Expr)
  (body initial action first second : Stmt) (labels : LoopLabels) (bound iterator : Var)
  (declared : Option Var)

@[simp, grind =] lemma labels_whileCode : (whileCode start condition body labels).labels =
    start :: (body.labels ++ [labels.onContinue, labels.onBreak]) := by
  simp [whileCode, Stmt.labels, Stmt.parts, Stmt.ownLabels]

@[simp, grind =] lemma vars_whileCode : (whileCode start condition body labels).vars = body.vars := by
  simp [whileCode, Stmt.vars, Stmt.parts, Stmt.ownVars]

@[simp, grind =] lemma targets_whileCode : (whileCode start condition body labels).targets =
    labels.onContinue :: (body.targets ++ [start]) := by
  simp [whileCode, Stmt.targets, Stmt.parts, Stmt.ownTargets]

@[simp, grind =] lemma labels_forCode :
    (forCode test start initial condition action body labels declared).labels =
      initial.labels ++ start :: (body.labels ++ labels.onContinue :: (action.labels ++
        [test, labels.onBreak])) := by
  cases declared <;> simp [forCode, whileCode, Stmt.labels, Stmt.parts, partsAll, Stmt.ownLabels]

@[simp, grind =] lemma vars_forCode :
    (forCode test start initial condition action body labels declared).vars =
      initial.vars ++ (body.vars ++ action.vars) := by
  cases declared <;> simp [forCode, whileCode, Stmt.vars, Stmt.parts, partsAll, Stmt.ownVars]

@[simp, grind =] lemma targets_forCode :
    (forCode test start initial condition action body labels declared).targets =
      initial.targets ++ test :: (body.targets ++ (action.targets ++ [start])) := by
  cases declared <;> simp [forCode, whileCode, Stmt.targets, Stmt.parts, partsAll, Stmt.ownTargets]

@[simp, grind =] lemma labels_countingCode :
    (countingCode bound test start iterator lower upper body labels).labels =
      start :: (body.labels ++ [labels.onContinue, test, labels.onBreak]) := by
  simp [countingCode, forCode, whileCode, Stmt.labels, Stmt.parts, partsAll, Stmt.ownLabels]

@[simp, grind =] lemma vars_countingCode :
    (countingCode bound test start iterator lower upper body labels).vars =
      bound :: iterator :: body.vars := by
  simp [countingCode, forCode, whileCode, Stmt.vars, Stmt.parts, partsAll, Stmt.ownVars]

@[simp, grind =] lemma targets_countingCode :
    (countingCode bound test start iterator lower upper body labels).targets =
      test :: (body.targets ++ [start]) := by
  simp [countingCode, forCode, whileCode, Stmt.targets, Stmt.parts, partsAll, Stmt.ownTargets]

@[simp, grind =] lemma labels_ifCode :
    (ifCode inner done condition body).labels = inner :: (body.labels ++ [done]) := by
  simp [ifCode, Stmt.labels, Stmt.parts, Stmt.ownLabels]

@[simp, grind =] lemma vars_ifCode : (ifCode inner done condition body).vars = body.vars := by
  simp [ifCode, Stmt.vars, Stmt.parts, Stmt.ownVars]

@[simp, grind =] lemma targets_ifCode :
    (ifCode inner done condition body).targets = inner :: done :: body.targets := by
  simp [ifCode, Stmt.targets, Stmt.parts, Stmt.ownTargets]

@[simp, grind =] lemma labels_ifElseCode :
    (ifElseCode inner otherwise done condition first second).labels =
      inner :: (first.labels ++ otherwise :: (second.labels ++ [done])) := by
  simp [ifElseCode, Stmt.labels, Stmt.parts, Stmt.ownLabels]

@[simp, grind =] lemma vars_ifElseCode :
    (ifElseCode inner otherwise done condition first second).vars = first.vars ++ second.vars := by
  simp [ifElseCode, Stmt.vars, Stmt.parts, Stmt.ownVars]

@[simp, grind =] lemma targets_ifElseCode :
    (ifElseCode inner otherwise done condition first second).targets =
      inner :: otherwise :: (first.targets ++ done :: second.targets) := by
  simp [ifElseCode, Stmt.targets, Stmt.parts, Stmt.ownTargets]

end JumpCode

/-! ### Marks of structured statements -/

section Structured

variable (condition lower upper count : Expr) (body initial action first second : Stmt)
  (labels : LoopLabels) (iterator : Var)

@[simp, grind =] lemma labels_whileLoop : (Stmt.whileLoop condition body labels).labels =
    labels.onBreak :: labels.onContinue :: body.labels := by
  simp [Stmt.labels, Stmt.parts, Stmt.ownLabels]

@[simp, grind =] lemma vars_whileLoop : (Stmt.whileLoop condition body labels).vars = body.vars := by
  simp [Stmt.vars, Stmt.parts, Stmt.ownVars]

@[simp, grind =] lemma labels_forLoop : (Stmt.forLoop initial condition action body labels).labels =
    labels.onBreak :: labels.onContinue :: (initial.labels ++ (action.labels ++ body.labels)) := by
  simp [Stmt.labels, Stmt.parts, Stmt.ownLabels]

@[simp, grind =] lemma vars_forLoop : (Stmt.forLoop initial condition action body labels).vars =
    initial.vars ++ (action.vars ++ body.vars) := by
  simp [Stmt.vars, Stmt.parts, Stmt.ownVars]

@[simp, grind =] lemma labels_fromTo : (Stmt.fromTo iterator lower upper body labels).labels =
    labels.onBreak :: labels.onContinue :: body.labels := by
  simp [Stmt.labels, Stmt.parts, Stmt.ownLabels]

@[simp, grind =] lemma vars_fromTo : (Stmt.fromTo iterator lower upper body labels).vars =
    iterator :: body.vars := by
  simp [Stmt.vars, Stmt.parts, Stmt.ownVars]

@[simp, grind =] lemma labels_loop : (Stmt.loop iterator count body labels).labels =
    labels.onBreak :: labels.onContinue :: body.labels := by
  simp [Stmt.labels, Stmt.parts, Stmt.ownLabels]

@[simp, grind =] lemma vars_loop :
    (Stmt.loop iterator count body labels).vars = iterator :: body.vars := by
  simp [Stmt.vars, Stmt.parts, Stmt.ownVars]

@[simp, grind =] lemma labels_ifThen : (Stmt.ifElse condition body none).labels = body.labels := by
  simp [Stmt.labels, Stmt.parts, Stmt.ownLabels]

@[simp, grind =] lemma vars_ifThen : (Stmt.ifElse condition body none).vars = body.vars := by
  simp [Stmt.vars, Stmt.parts, Stmt.ownVars]

@[simp, grind =] lemma labels_ifElse : (Stmt.ifElse condition first (some second)).labels =
    first.labels ++ second.labels := by
  simp [Stmt.labels, Stmt.parts, Stmt.ownLabels]

@[simp, grind =] lemma vars_ifElse : (Stmt.ifElse condition first (some second)).vars =
    first.vars ++ second.vars := by
  simp [Stmt.vars, Stmt.parts, Stmt.ownVars]

end Structured

/-! ### What is introduced once stays introduced once -/

lemma ite_labelAt (ids : Ids) (offset : Nat) (label : Label) :
    (if (ids.labelAt offset == label) = true then 1 else 0) =
      within (ids.nextLabel + offset) (ids.nextLabel + offset + 1) label.index := by
  have same : ids.labelAt offset = label ↔ ids.nextLabel + offset = label.index := by
    cases label
    simp [Ids.labelAt]
  simp only [beq_iff_eq, same, within]
  split_ifs <;> omega

lemma ite_localVar (ids : Ids) (name : String) (type : Ty) (id : VarId) :
    (if ((ids.localVar name type).id == id) = true then 1 else 0) =
      within ids.nextVar (ids.nextVar + 1) id.index := by
  have same : (ids.localVar name type).id = id ↔ ids.nextVar = id.index := by
    cases id
    simp [Ids.localVar]
  simp only [beq_iff_eq, same, within]
  split_ifs <;> omega

/-- The second statement has the labels and variables of the first one, and besides them each one
that is taken from the counters once. -/
structure Introduces (ids : Ids) (stmt low : Stmt) (ids' : Ids) : Prop where
  reach : ids.Reach ids'
  labels : ∀ label, low.labels.count label =
    stmt.labels.count label + within ids.nextLabel ids'.nextLabel label.index
  varIds : ∀ id, low.varIds.count id =
    stmt.varIds.count id + within ids.nextVar ids'.nextVar id.index
  vars : stmt.vars ⊆ low.vars

/-- **Lowering introduces everything once.** -/
theorem introduces_lower (stmt : Stmt) (ids : Ids) :
    Introduces ids stmt (stmt.lower.run ids).1 (stmt.lower.run ids).2 := by
  have self (ids : Ids) (stmt : Stmt) : Introduces ids stmt stmt ids :=
    ⟨.refl ids, by simp [within_self], by simp [within_self], List.Subset.refl _⟩
  apply lower_induct (P := Introduces)
    (Q := fun ids stmts lows ids' => Introduces ids (.block stmts) (.block lows) ids')
  case simple => exact @fun ids stmt _ => self ids stmt
  case nil => exact @fun ids => self ids _
  case cons =>
    rintro ids ids₁ ids₂ stmt stmts low lows ⟨hr₁, hl₁, hi₁, hv₁⟩ ⟨hr₂, hl₂, hi₂, hv₂⟩
    refine ⟨hr₁.trans hr₂, fun label => ?_, fun id => ?_, fun v => ?_⟩
    · grind [within, hr₁.labels, hr₂.labels]
    · grind [within, hr₁.vars, hr₂.vars]
    · grind
  case block => exact fun h => h
  case ifThen =>
    rintro ids ids' condition branch low ⟨hr, hl, hi, hv⟩
    refine ⟨(ids.reach_skip 0 2).trans hr, ?_, ?_, fun v => ?_⟩
    · rintro ⟨n⟩
      grind [within, Ids.labelAt, hr.labels]
    · grind [within, Stmt.varIds]
    · grind
  case ifElse =>
    rintro ids ids₁ ids₂ condition first second low₁ low₂ ⟨hr₁, hl₁, hi₁, hv₁⟩ ⟨hr₂, hl₂, hi₂, hv₂⟩
    refine ⟨((ids.reach_skip 0 3).trans hr₁).trans hr₂, ?_, ?_, fun v => ?_⟩
    · rintro ⟨n⟩
      grind [within, Ids.labelAt, hr₁.labels, hr₂.labels]
    · grind [within, Stmt.varIds, hr₁.vars, hr₂.vars]
    · grind
  case whileLoop =>
    rintro ids ids' condition body low labels ⟨hr, hl, hi, hv⟩
    refine ⟨(ids.reach_skip 0 1).trans hr, ?_, ?_, fun v => ?_⟩
    · rintro ⟨n⟩
      grind [within, Ids.labelAt, hr.labels]
    · grind [within, Stmt.varIds]
    · grind
  case forLoop =>
    rintro ids ids₁ ids₂ ids₃ initial condition action body labels low₁ low₂ low₃
      ⟨hr₁, hl₁, hi₁, hv₁⟩ ⟨hr₂, hl₂, hi₂, hv₂⟩ ⟨hr₃, hl₃, hi₃, hv₃⟩
    refine ⟨((((ids.reach_skip 0 1).trans hr₁).trans (ids₁.reach_skip 0 1)).trans hr₂).trans hr₃,
      ?_, ?_, fun v => ?_⟩
    · rintro ⟨n⟩
      grind [within, Ids.labelAt, hr₁.labels, hr₂.labels, hr₃.labels]
    · grind [within, Stmt.varIds, hr₁.vars, hr₂.vars, hr₃.vars]
    · grind
  case fromTo =>
    rintro ids ids' iterator lower upper body labels low ⟨hr, hl, hi, hv⟩
    refine ⟨(ids.reach_skip 1 2).trans hr, ?_, ?_, fun v => ?_⟩
    · rintro ⟨n⟩
      grind [within, Ids.labelAt, hr.labels]
    · rintro ⟨n⟩
      grind [within, Stmt.varIds, Ids.localVar, hr.vars]
    · grind
  case loop =>
    rintro ids ids' iterator count body labels low ⟨hr, hl, hi, hv⟩
    exact ⟨hr, hl, hi, hv⟩

/-! ### Properties of all parts -/

/-- A property of statements that the jump code in their place has too; `allowed` holds of the
variables that lowering introduces. -/
structure Survives (P : Stmt → Prop) (allowed : Var → Prop) : Prop where
  block : ∀ stmts, P (.block stmts)
  label : ∀ label, P (.label label)
  goto : ∀ label, P (.goto label)
  delete : ∀ {v initializer}, P (.declare v initializer) → P (.delete v)
  ifElse : ∀ {condition first second} label, P (.ifElse condition first second) →
    P (.gotoIf condition label)
  whileLoop : ∀ {condition body labels} label, P (.whileLoop condition body labels) →
    P (.gotoIf condition label)
  forLoop : ∀ {initial condition action body labels} label,
    P (.forLoop initial condition action body labels) → P (.gotoIf condition label)
  fromTo : ∀ {iterator lower upper body labels} (ids : Ids) (label : Label),
    P (.fromTo iterator lower upper body labels) → allowed iterator →
    let bound := ids.localVar boundName .int
    allowed bound → P (.declare bound (some upper)) ∧ P (.declare iterator (some lower)) ∧
      P (.approach iterator bound) ∧ P (.gotoIf (.binary (.name iterator lower.span) .ne
        (.name bound upper.span) .bool (lower.span.merge upper.span)) label)
  loop : ∀ {iterator count body labels}, P (.loop iterator count body labels) →
    P (.fromTo iterator (.int 0 count.span) count body labels)

namespace Survives

variable {P : Stmt → Prop} {allowed : Var → Prop} (h : Survives P allowed)
include h

variable {condition : Expr} {start : Label} {body : Stmt}

lemma forall_block {stmts : List Stmt} (hstmts : ∀ stmt ∈ stmts, ∀ part ∈ stmt.parts, P part) :
    ∀ part ∈ (Stmt.block stmts).parts, P part := by
  rw [parts_block, forall_mem_cons]
  exact ⟨h.block stmts, forall_mem_flatMap.mpr hstmts⟩

lemma forall_whileCode (htest : P (.gotoIf condition start)) (hbody : ∀ part ∈ body.parts, P part)
    (labels : LoopLabels) : ∀ part ∈ (whileCode start condition body labels).parts, P part := by
  refine h.forall_block ?_
  simpa [Stmt.parts, h.label, h.goto, htest] using hbody

lemma forall_forCode (htest : P (.gotoIf condition start)) {initial action : Stmt}
    (hinitial : ∀ part ∈ initial.parts, P part) (haction : ∀ part ∈ action.parts, P part)
    (hbody : ∀ part ∈ body.parts, P part) (test : Label) (labels : LoopLabels)
    {declared : Option Var} (hdeclared : ∀ v ∈ declared, P (.delete v)) :
    ∀ part ∈ (forCode test start initial condition action body labels declared).parts, P part := by
  have hround : ∀ part ∈ (Stmt.block [body, .label labels.onContinue, action]).parts, P part :=
    h.forall_block (by simpa [Stmt.parts, h.label] using ⟨hbody, haction⟩)
  have hrounds := h.forall_whileCode htest hround ⟨labels.onBreak, test⟩
  refine h.forall_block ?_
  cases declared with
  | none => simpa using ⟨hinitial, hrounds⟩
  | some => simpa [Stmt.parts, hdeclared] using ⟨hinitial, hrounds⟩

lemma forall_countingCode {ids : Ids} {iterator : Var} {lower upper : Expr} {low : Stmt}
    {labels : LoopLabels} (hown : P (.fromTo iterator lower upper body labels))
    (hlow : ∀ part ∈ low.parts, P part) (test start : Label)
    (hvars : ∀ v ∈ (countingCode (ids.localVar boundName .int) test start iterator lower upper low
      labels).vars, allowed v) :
    ∀ part ∈ (countingCode (ids.localVar boundName .int) test start iterator lower upper low
      labels).parts, P part := by
  rw [vars_countingCode, forall_mem_cons, forall_mem_cons] at hvars
  obtain ⟨hbound, hfirst, hstep, htest⟩ := h.fromTo ids start hown hvars.2.1 hvars.1
  have single {stmt : Stmt} (hstmt : P stmt) (hparts : stmt.parts = [stmt]) :
      ∀ part ∈ stmt.parts, P part := hparts ▸ forall_mem_singleton.mpr hstmt
  have hdeclared : ∀ v ∈ some iterator, P (.delete v) := by simpa using h.delete hfirst
  have hrounds := h.forall_forCode htest (single hfirst rfl) (single hstep rfl) hlow test labels
    hdeclared
  refine h.forall_block ?_
  simpa [Stmt.parts, h.delete hbound] using ⟨hbound, hrounds⟩

/-- **What survives lowering** holds of all parts of the lowered form if it holds of all parts of
the statement. -/
theorem forall_lower (stmt : Stmt) (ids : Ids) (hstmt : ∀ part ∈ stmt.parts, P part)
    (hvars : ∀ v ∈ (stmt.lower.run ids).1.vars, allowed v) :
    ∀ part ∈ (stmt.lower.run ids).1.parts, P part := by
  refine lower_induct
    (P := fun _ stmt low _ => (∀ part ∈ stmt.parts, P part) → (∀ v ∈ low.vars, allowed v) →
      ∀ part ∈ low.parts, P part)
    (Q := fun _ stmts lows _ => (∀ stmt ∈ stmts, ∀ part ∈ stmt.parts, P part) →
      (∀ v ∈ lows.flatMap Stmt.vars, allowed v) → ∀ low ∈ lows, ∀ part ∈ low.parts, P part)
    ?simple ?nil ?cons ?block ?ifThen ?ifElse ?whileLoop ?forLoop ?fromTo ?loop stmt ids hstmt hvars
  case simple => exact fun _ hstmt _ => hstmt
  case nil => exact fun _ _ => forall_mem_nil _
  case cons =>
    intro _ _ _ stmt stmts low lows ih ihs hstmts hvars
    rw [flatMap_cons, forall_mem_append] at hvars
    rw [forall_mem_cons] at hstmts ⊢
    exact ⟨ih hstmts.1 hvars.1, ihs hstmts.2 hvars.2⟩
  case block =>
    intro _ _ stmts lows ih hstmt hvars
    rw [parts_block, forall_mem_cons, forall_mem_flatMap] at hstmt
    rw [vars_block] at hvars
    exact h.forall_block (ih hstmt.2 hvars)
  case ifThen =>
    intro ids _ condition branch low ih hstmt hvars
    rw [Stmt.parts, forall_mem_cons] at hstmt
    rw [vars_ifCode] at hvars
    refine h.forall_block ?_
    simpa [Stmt.parts, h.label, h.goto, h.ifElse _ hstmt.1] using ih hstmt.2 hvars
  case ifElse =>
    intro ids _ _ condition first second low₁ low₂ ih₁ ih₂ hstmt hvars
    rw [Stmt.parts, forall_mem_cons, forall_mem_append] at hstmt
    rw [vars_ifElseCode, forall_mem_append] at hvars
    refine h.forall_block ?_
    simpa [Stmt.parts, h.label, h.goto, h.ifElse _ hstmt.1] using
      ⟨ih₁ hstmt.2.1 hvars.1, ih₂ hstmt.2.2 hvars.2⟩
  case whileLoop =>
    intro _ _ condition body low labels ih hstmt hvars
    rw [Stmt.parts, forall_mem_cons] at hstmt
    rw [vars_whileCode] at hvars
    exact h.forall_whileCode (h.whileLoop _ hstmt.1) (ih hstmt.2 hvars) labels
  case forLoop =>
    intro _ _ _ _ initial condition action body labels low₁ low₂ low₃ ih₁ ih₂ ih₃ hstmt hvars
    rw [Stmt.parts, forall_mem_cons, forall_mem_append, forall_mem_append] at hstmt
    obtain ⟨hown, ⟨hinitial, haction⟩, hbody⟩ := hstmt
    rw [vars_forCode, forall_mem_append, forall_mem_append] at hvars
    refine h.forall_forCode (h.forLoop _ hown) (ih₁ hinitial hvars.1) (ih₃ haction hvars.2.2)
      (ih₂ hbody hvars.2.1) _ labels fun v hv => ?_
    cases initial <;> cases hv
    exact h.delete (hinitial _ mem_cons_self)
  case fromTo =>
    intro ids _ iterator lower upper body labels low ih hstmt hvars
    rw [Stmt.parts, forall_mem_cons] at hstmt
    have hlow := ih hstmt.2 fun v hv => hvars v (by simp [hv])
    exact h.forall_countingCode hstmt.1 hlow _ _ hvars
  case loop =>
    intro ids _ iterator count body labels low ih hstmt hvars
    rw [Stmt.parts, forall_mem_cons] at hstmt
    exact ih (forall_mem_cons.mpr ⟨h.loop hstmt.1, hstmt.2⟩) hvars

/-- Flattening adds deletions of variables that are declared. -/
lemma forall_flat {stmt : Stmt} (hjump : IsJumpCode stmt) (hstmt : ∀ part ∈ stmt.parts, P part) :
    ∀ piece ∈ stmt.flat, P piece := by
  induction hjump with
  | lowered hlow => rwa [flat_of_isLowered hlow, ← parts_of_isLowered hlow]
  | block _ ih =>
    rw [parts_block, forall_mem_cons, forall_mem_flatMap] at hstmt
    rw [flat_block, forall_mem_append, forall_mem_flatMap]
    refine ⟨fun stmt hmem => ih stmt hmem (hstmt.2 stmt hmem), fun piece hpiece => ?_⟩
    obtain ⟨v, initializer, rfl, hmem⟩ := exists_delete_of_mem_cleanup hpiece
    exact h.delete (hstmt.2 _ hmem _ mem_cons_self)

end Survives

/-! ### Jumps lead to labels -/

/-- Statements whose jumps are those of `break` and `continue`: they lead to the ends of the
innermost loop, of which `loops` are the labels around the statement. -/
inductive Structured : Option LoopLabels → Stmt → Prop
  | declare {loops} (var : Var) (initializer : Option Expr) :
    Structured loops (.declare var initializer)
  | ret {loops} (value : Option Expr) : Structured loops (.ret value)
  | expr {loops} (value : Expr) : Structured loops (.expr value)
  | onBreak (labels : LoopLabels) : Structured (some labels) (.goto labels.onBreak)
  | onContinue (labels : LoopLabels) : Structured (some labels) (.goto labels.onContinue)
  | block {loops stmts} (h : ∀ stmt ∈ stmts, Structured loops stmt) :
    Structured loops (.block stmts)
  | ifThen {loops} (condition : Expr) {branch} (h : Structured loops branch) :
    Structured loops (.ifElse condition branch none)
  | ifElse {loops} (condition : Expr) {first second} (h₁ : Structured loops first)
    (h₂ : Structured loops second) : Structured loops (.ifElse condition first (some second))
  | whileLoop {loops} (condition : Expr) {body labels} (h : Structured (some labels) body) :
    Structured loops (.whileLoop condition body labels)
  | forLoop {loops} (condition : Expr) {initial action body labels} (hi : Structured loops initial)
    (ha : Structured loops action) (hb : Structured (some labels) body) :
    Structured loops (.forLoop initial condition action body labels)
  | fromTo {loops} (iterator : Var) (lower upper : Expr) {body labels}
    (h : Structured (some labels) body) :
    Structured loops (.fromTo iterator lower upper body labels)
  | loop {loops} (iterator : Var) (count : Expr) {body labels} (h : Structured (some labels) body) :
    Structured loops (.loop iterator count body labels)

/-- Structured statements end no scope by themselves. -/
lemma Structured.ne_delete {loops : Option LoopLabels} {stmt : Stmt} (h : Structured loops stmt) :
    ∀ part ∈ stmt.parts, ∀ v, part ≠ .delete v := by
  induction h with
  | block _ ih => simpa using fun part stmt hstmt => ih stmt hstmt part
  | _ => simp_all [Stmt.parts, or_imp]

/-- Whether a label is one of the ends of a loop that may be around a statement. -/
def LeavesTo (loops : Option LoopLabels) (label : Label) : Prop :=
  ∃ labels, loops = some labels ∧ (label = labels.onBreak ∨ label = labels.onContinue)

lemma leavesTo_some {labels : LoopLabels} {label : Label} :
    LeavesTo (some labels) label ↔ label = labels.onBreak ∨ label = labels.onContinue := by
  simp [LeavesTo]

/-- **Jumps lead to labels.** In the lowered form of a structured statement a jump leads to a label
in it, or to an end of the loop around it. -/
theorem targets_lower (stmt : Stmt) (ids : Ids) (loops : Option LoopLabels)
    (h : Structured loops stmt) (label : Label) (hlabel : label ∈ (stmt.lower.run ids).1.targets) :
    label ∈ (stmt.lower.run ids).1.labels ∨ LeavesTo loops label := by
  revert loops
  refine lower_induct
    (P := fun _ stmt low _ => label ∈ low.targets → ∀ loops, Structured loops stmt →
      label ∈ low.labels ∨ LeavesTo loops label)
    (Q := fun _ stmts lows _ => label ∈ lows.flatMap Stmt.targets → ∀ loops,
      (∀ stmt ∈ stmts, Structured loops stmt) →
      label ∈ lows.flatMap Stmt.labels ∨ LeavesTo loops label)
    ?simple ?nil ?cons ?block ?ifThen ?ifElse ?whileLoop ?forLoop ?fromTo ?loop stmt ids hlabel
  case simple =>
    intro _ stmt hstmt hmem loops h
    rw [(marks_of_isLowered hstmt).2.2] at hmem
    cases h with
    | onBreak labels | onContinue labels => simp_all [Stmt.ownTargets, leavesTo_some]
    | declare | ret | expr => cases hmem
    | block | ifThen | ifElse | whileLoop | forLoop | fromTo | loop => cases hstmt
  case nil =>
    intro _ hmem
    cases hmem
  case cons =>
    intro _ _ _ stmt stmts low lows h₁ h₂ hmem loops h
    grind
  case block =>
    intro _ _ stmts lows h hmem loops hs
    cases hs with
    | block => grind
  case ifThen =>
    intro ids _ condition branch low h hmem loops hs
    cases hs with
    | ifThen => grind
  case ifElse =>
    intro ids _ _ condition first second low₁ low₂ h₁ h₂ hmem loops hs
    cases hs with
    | ifElse => grind
  case whileLoop =>
    intro ids _ condition body low labels h hmem loops hs
    cases hs with
    | whileLoop _ hbody =>
      have hends := fun hmem => (h hmem _ hbody).imp_right leavesTo_some.mp
      grind
  case forLoop =>
    intro ids ids₁ _ _ initial condition action body labels low₁ low₂ low₃ hi hb ha hmem loops hs
    cases hs with
    | forLoop _ hinitial haction hbody =>
      have hends := fun hmem => (hb hmem _ hbody).imp_right leavesTo_some.mp
      grind
  case fromTo =>
    intro ids _ iterator lower upper body labels low h hmem loops hs
    cases hs with
    | fromTo _ _ _ hbody =>
      have hends := fun hmem => (h hmem _ hbody).imp_right leavesTo_some.mp
      rw [targets_countingCode] at hmem
      rw [labels_countingCode]
      grind
  case loop =>
    intro ids _ iterator count body labels low h hmem loops hs
    cases hs with
    | loop _ _ hbody => exact h hmem loops (.fromTo _ _ _ hbody)

end Code

end Parcel
