import Parcel.Proofs.Code.Layout
import Parcel.Proofs.Machine.Contract

/-!
# Variables that have a value in lowered code

The lowered code of a statement keeps to a contract if what the statement touches is permitted where
it is visible. The one exception is a variable that the action of a `for` loop declares: the body of
the loop sees it, but a round runs the body before the action, and the variable is deleted after
each round.
-/

namespace Parcel

open Code List

/-- The body of a `for` loop in the statement reads a variable that the action of the loop
declares. -/
def Code.Stmt.EarlyRead (stmt : Stmt) (v : Var) : Prop :=
  ∃ initial condition action body labels,
    Stmt.forLoop initial condition action body labels ∈ stmt.parts ∧ v ∈ action.own ∧
      Access.read v ∈ body.accesses

lemma Code.Stmt.EarlyRead.of_part {stmt part : Stmt} {v : Var} (h : part.EarlyRead v)
    (hparts : part.parts ⊆ stmt.parts) : stmt.EarlyRead v := by
  obtain ⟨initial, condition, action, body, labels, hloop, hv, hread⟩ := h
  exact ⟨initial, condition, action, body, labels, hparts hloop, hv, hread⟩

/-- A statement touches what the statements inside it touch. -/
lemma Code.accesses_subset_of_parts {stmt part : Stmt} (hparts : part.parts ⊆ stmt.parts) :
    part.accesses ⊆ stmt.accesses := by
  intro a ha
  obtain ⟨s, hs, ha⟩ := mem_flatMap.mp ha
  exact mem_flatMap.mpr ⟨s, hparts hs, ha⟩

namespace Contract

variable {c : Contract} {atLabel : Label → List VarId} {present present' : List VarId}

variable {a : Access} {vars vars' : List Var} {low : Stmt}

lemma Permits.mono (h : c.Permits present a) (hsub : present ⊆ present') :
    c.Permits present' a := by
  cases a with
  | read =>
    refine h.imp_left fun hmem => ?_
    split at hmem
    next hglobal => rwa [if_pos hglobal]
    next hlocal =>
      rw [if_neg hlocal]
      exact hsub hmem
  | write | call => exact h

lemma Checks.mono {code : List Stmt} (h : c.Checks atLabel present code)
    (hsub : present ⊆ present') : c.Checks atLabel present' code := by
  induction code generalizing present present' with
  | nil => trivial
  | cons stmt code ih =>
    refine ⟨fun a ha => (h.1 a ha).mono hsub, ?_⟩
    have hnext := h.2
    cases stmt with
    | declare =>
      refine ih hnext ?_
      split
      · exact hsub
      · exact cons_subset_cons _ hsub
    | label => exact ⟨List.Subset.trans hnext.1 hsub, hnext.2⟩
    | goto l | gotoIf condition l => exact ⟨List.Subset.trans hnext.1 hsub, ih hnext.2 hsub⟩
    | delete =>
      refine ih hnext fun id hid => ?_
      obtain ⟨hmem, hne⟩ := mem_filter.mp hid
      exact mem_filter.mpr ⟨hsub hmem, hne⟩
    | _ => exact ih hnext hsub

/-! ### One statement after the other -/

/-- Code leads from where some variables have a value to where others have one. -/
def Passes (c : Contract) (atLabel : Label → List VarId) (present : List VarId) (code : List Stmt)
    (present' : List VarId) : Prop :=
  ∀ rest, c.Checks atLabel present' rest → c.Checks atLabel present (code ++ rest)

section Steps

variable {rest : List Stmt} {label : Label} {there : List VarId} {condition : Expr}

lemma checks_label (hlabel : atLabel label = there) (hsub : there ⊆ present)
    (hrest : c.Checks atLabel there rest) : c.Checks atLabel present (.label label :: rest) := by
  subst hlabel
  exact ⟨forall_mem_nil _, hsub, hrest⟩

lemma checks_goto (hlabel : atLabel label = there) (hsub : there ⊆ present)
    (hrest : c.Checks atLabel present rest) : c.Checks atLabel present (.goto label :: rest) := by
  subst hlabel
  exact ⟨forall_mem_nil _, hsub, hrest⟩

lemma checks_gotoIf (hcondition : ∀ a ∈ condition.accesses, c.Permits present a)
    (hlabel : atLabel label = there) (hsub : there ⊆ present) (hrest : c.Checks atLabel present rest) :
    c.Checks atLabel present (.gotoIf condition label :: rest) := by
  subst hlabel
  exact ⟨hcondition, hsub, hrest⟩

lemma checks_declare {v : Var} {initializer : Option Expr} (hlocal : v.isGlobal = false)
    (hinit : ∀ a ∈ (Stmt.declare v initializer).ownAccesses, c.Permits present a)
    (hrest : c.Checks atLabel (v.id :: present) rest) :
    c.Checks atLabel present (.declare v initializer :: rest) := by
  refine ⟨hinit, ?_⟩
  show c.Checks atLabel (if v.isGlobal then present else v.id :: present) rest
  rwa [hlocal, if_neg Bool.false_ne_true]

lemma checks_deletions (hfresh : ∀ v ∈ vars, v.id ∉ present)
    (hrest : c.Checks atLabel present rest) (hsub : present ⊆ present') :
    c.Checks atLabel present' (deletions vars ++ rest) := by
  have hdelete (vars : List Var) (hfresh : ∀ v ∈ vars, v.id ∉ present) {present' : List VarId}
      (hsub : present ⊆ present') : c.Checks atLabel present' (vars.map Stmt.delete ++ rest) := by
    induction vars generalizing present' with
    | nil => exact hrest.mono hsub
    | cons v vars ih =>
      rw [forall_mem_cons] at hfresh
      refine ⟨forall_mem_nil _, ih hfresh.2 fun id hid => ?_⟩
      refine mem_filter.mpr ⟨hsub hid, decide_eq_true ?_⟩
      rintro rfl
      exact hfresh.1 hid
  exact hdelete vars.reverse (fun v hv => hfresh v (mem_reverse.mp hv)) hsub

end Steps

/-! ### What is permitted where -/

/-- A statement touches what is visible, and what it touches is permitted where it is visible, but
for early reads, which are allowed to fail. -/
structure Fits (c : Contract) (visible : List Var) (present : List VarId) (stmt : Stmt) : Prop where
  within : stmt.Scoped visible
  permits : ∀ a ∈ stmt.accesses, a.Within visible → c.Permits present a
  early : ∀ v, stmt.EarlyRead v → c.allowed (.unresolvedVariable v.name)

/-- The same for statements one after the other. -/
structure FitsAll (c : Contract) (visible : List Var) (present : List VarId) (stmts : List Stmt) :
    Prop where
  within : ScopedAll stmts visible
  permits : ∀ stmt ∈ stmts, ∀ a ∈ stmt.accesses, a.Within visible → c.Permits present a
  early : ∀ stmt ∈ stmts, ∀ v, stmt.EarlyRead v → c.allowed (.unresolvedVariable v.name)

/-- Variables that are introduced where others have a value: they differ from those and from each
other, and live in the frame. -/
structure Apart (present : List VarId) (vars : List Var) : Prop where
  nodup : (vars.map (·.id)).Nodup
  fresh : ∀ v ∈ vars, v.id ∉ present
  locals : ∀ v ∈ vars, v.isGlobal = false

/-- Where variables have a value after they are declared. -/
def declaring (own : List Var) (present : List VarId) : List VarId :=
  own.map (·.id) ++ present

lemma subset_declaring (own : List Var) (present : List VarId) : present ⊆ declaring own present :=
  subset_append_right _ _

lemma Apart.left (h : Apart present (vars ++ vars')) : Apart present vars where
  nodup := by
    have hnodup := h.nodup
    rw [map_append] at hnodup
    exact (nodup_append.mp hnodup).1
  fresh v hv := h.fresh v (mem_append_left _ hv)
  locals v hv := h.locals v (mem_append_left _ hv)

/-- Variables that are introduced after others, of which some are declared. -/
lemma Apart.right {own : List Var} (h : Apart present (vars ++ vars')) (hown : own ⊆ vars) :
    Apart (declaring own present) vars' where
  nodup := by
    have hnodup := h.nodup
    rw [map_append] at hnodup
    exact (nodup_append.mp hnodup).2.1
  fresh v hv hid := by
    rcases mem_append.mp hid with hid | hid
    · obtain ⟨w, hw, heq⟩ := mem_map.mp hid
      have hnodup := h.nodup
      rw [map_append] at hnodup
      exact (nodup_append.mp hnodup).2.2 _ (mem_map_of_mem (hown hw)) _
        (mem_map_of_mem hv) heq
    · exact h.fresh v (mem_append_right _ hv) hid
  locals v hv := h.locals v (mem_append_right _ hv)

section Fits

variable {visible : List Var} {stmt part : Stmt} {stmts : List Stmt} (own : List Var)

/-- A variable that is declared has a value, and so have those that had one. -/
lemma permits_declaring {own : List Var} (hlocals : ∀ v ∈ own, v.isGlobal = false)
    (h : a.Within visible → c.Permits present a) (ha : a.Within (own ++ visible)) :
    c.Permits (declaring own present) a := by
  cases a with
  | read v =>
    rcases mem_append.mp (ha v rfl) with hv | hv
    · refine .inl ?_
      rw [hlocals v hv, if_neg Bool.false_ne_true]
      exact mem_append_left _ (mem_map_of_mem hv)
    · refine (h fun w hw => ?_).mono (subset_declaring own present)
      cases hw
      exact hv
  | write => trivial
  | call => exact h fun _ hv => nomatch hv

lemma Fits.inside (h : c.Fits visible present stmt) (hlocals : ∀ v ∈ own, v.isGlobal = false)
    (hparts : part.parts ⊆ stmt.parts) (hscoped : part.Scoped (own ++ visible)) :
    c.Fits (own ++ visible) (declaring own present) part where
  within := hscoped
  permits a ha := permits_declaring hlocals (h.permits a (accesses_subset_of_parts hparts ha))
  early v hv := h.early v (hv.of_part hparts)

/-- An expression inside a statement, after declarations. -/
lemma Fits.expr (h : c.Fits visible present stmt) (hlocals : ∀ v ∈ own, v.isGlobal = false)
    {e : Expr} (haccesses : e.accesses ⊆ stmt.accesses) (hwithin : e.Within (own ++ visible)) :
    ∀ a ∈ e.accesses, c.Permits (declaring own present) a :=
  fun a ha => permits_declaring hlocals (h.permits a (haccesses ha)) (hwithin a ha)

lemma Fits.mono (h : c.Fits visible present stmt) (hsub : present ⊆ present') :
    c.Fits visible present' stmt :=
  ⟨h.within, fun a ha hwithin => (h.permits a ha hwithin).mono hsub, h.early⟩

lemma Fits.all (h : c.Fits visible present (.block stmts)) : c.FitsAll visible present stmts := by
  have hparts (stmt : Stmt) (hstmt : stmt ∈ stmts) : stmt.parts ⊆ (Stmt.block stmts).parts := by
    rw [parts_block]
    exact fun part hpart => mem_cons_of_mem _ (mem_flatMap.mpr ⟨stmt, hstmt, hpart⟩)
  exact ⟨h.within, fun stmt hstmt a ha => h.permits a (accesses_subset_of_parts (hparts stmt hstmt) ha),
    fun stmt hstmt v hv => h.early v (hv.of_part (hparts stmt hstmt))⟩

lemma FitsAll.head (h : c.FitsAll visible present (stmt :: stmts)) : c.Fits visible present stmt :=
  ⟨h.within.1, h.permits stmt mem_cons_self, h.early stmt mem_cons_self⟩

lemma FitsAll.tail (h : c.FitsAll visible present (stmt :: stmts))
    (hlocals : ∀ v ∈ stmt.own, v.isGlobal = false) :
    c.FitsAll (stmt.own ++ visible) (declaring stmt.own present) stmts :=
  ⟨h.within.2, fun s hs a ha => permits_declaring hlocals (h.permits s (.tail _ hs) a ha),
    fun s hs => h.early s (.tail _ hs)⟩

/-- The body of a `for` loop may find no value for what the action declares. -/
lemma Fits.early_body {initial action body : Stmt} {condition : Expr} {labels : LoopLabels}
    (h : c.Fits visible present (.forLoop initial condition action body labels))
    (hlocals : ∀ v ∈ initial.own, v.isGlobal = false) :
    c.Fits (action.own ++ (initial.own ++ visible)) (declaring initial.own present) body := by
  have hparts : body.parts ⊆ (Stmt.forLoop initial condition action body labels).parts :=
    List.Subset.trans (subset_append_right _ _) (subset_cons_self _ _)
  refine ⟨h.within.2.2.2, fun a ha hwithin => ?_, fun v hv => h.early v (hv.of_part hparts)⟩
  have hpermits := h.permits a (accesses_subset_of_parts hparts ha)
  cases a with
  | read v =>
    rcases mem_append.mp (hwithin v rfl) with hv | hv
    · exact .inr (h.early v ⟨initial, condition, action, body, labels, mem_cons_self, hv, ha⟩)
    · refine permits_declaring hlocals hpermits fun w hw => ?_
      cases hw
      exact hv
  | write => trivial
  | call => exact hpermits fun _ hv => nomatch hv

end Fits

/-! ### Forms of jump code -/

/-- Code leads from where some variables have a value to where others have one, for some choice of
the variables that have one at its labels. -/
def Certified (c : Contract) (loops : Option LoopLabels) (present : List VarId) (labels : List Label)
    (code : List Stmt) (present' : List VarId) : Prop :=
  ∃ env : List (Label × List VarId), env.map (·.1) = labels ∧
    ∀ atLabel, (∀ entry ∈ env, atLabel entry.1 = entry.2) →
      (∀ label, LeavesTo loops label → atLabel label ⊆ present) →
      c.Passes atLabel present code present'

/-- The code of a lowered statement leads from where some variables have a value to where the one that
it declares has one as well. -/
abbrev Carries (c : Contract) (loops : Option LoopLabels) (present : List VarId) (low : Stmt) :
    Prop :=
  c.Certified loops present low.labels low.flat (declaring low.own present)

section Forms

variable {loops : Option LoopLabels} {body first second initial action : Stmt} {condition : Expr}
  {labels : LoopLabels} {inner otherwise done start test : Label}

/-- The body of a loop is left to labels of the loop. -/
lemma subset_of_leavesTo {there : List VarId} (hbreak : atLabel labels.onBreak = there)
    (hcontinue : atLabel labels.onContinue = there) :
    ∀ label, LeavesTo (some labels) label → atLabel label ⊆ there := by
  intro label hlabel
  rcases leavesTo_some.mp hlabel with rfl | rfl
  · exact hbreak ▸ List.Subset.refl _
  · exact hcontinue ▸ List.Subset.refl _

lemma certified_whileCode (hkeeps : body.Keeps)
    (hcondition : ∀ a ∈ condition.accesses, c.Permits present a)
    (hbody : c.Carries (some labels) present body) (hfresh : ∀ v ∈ body.own, v.id ∉ present) :
    c.Carries loops present (whileCode start condition body labels) := by
  obtain ⟨env, henv, hpasses⟩ := hbody
  refine ⟨(start, present) :: (env ++ [(labels.onContinue, present), (labels.onBreak, present)]),
    by simp [henv], fun atLabel hat _ rest hrest => ?_⟩
  simp only [forall_mem_cons, forall_mem_append] at hat
  obtain ⟨hstart, hat, hcontinue, hbreak, -⟩ := hat
  have hround := hpasses atLabel hat (subset_of_leavesTo hbreak hcontinue)
  rw [flat_whileCode hkeeps]
  simp only [append_assoc, cons_append, nil_append]
  refine checks_goto hcontinue (.refl _) (checks_label hstart (.refl _) (hround _ ?_))
  refine checks_label hcontinue (subset_declaring _ _) (checks_gotoIf hcondition hstart (.refl _) ?_)
  exact checks_label hbreak (.refl _) (checks_deletions hfresh hrest (.refl _))

lemma certified_ifCode (hkeeps : body.Keeps)
    (hcondition : ∀ a ∈ condition.accesses, c.Permits present a)
    (hbody : c.Carries loops present body) (hfresh : ∀ v ∈ body.own, v.id ∉ present) :
    c.Carries loops present (ifCode inner done condition body) := by
  obtain ⟨env, henv, hpasses⟩ := hbody
  refine ⟨(inner, present) :: (env ++ [(done, present)]), by simp [henv],
    fun atLabel hat hleaves rest hrest => ?_⟩
  simp only [forall_mem_cons, forall_mem_append] at hat
  obtain ⟨hinner, hat, hdone, -⟩ := hat
  rw [flat_ifCode hkeeps]
  simp only [append_assoc, cons_append, nil_append]
  refine checks_gotoIf hcondition hinner (.refl _) (checks_goto hdone (.refl _) ?_)
  refine checks_label hinner (.refl _) (hpasses atLabel hat hleaves _ ?_)
  exact checks_label hdone (subset_declaring _ _) (checks_deletions hfresh hrest (.refl _))

lemma certified_ifElseCode (hkeeps₁ : first.Keeps) (hkeeps₂ : second.Keeps)
    (hcondition : ∀ a ∈ condition.accesses, c.Permits present a)
    (hfirst : c.Carries loops present first) (hsecond : c.Carries loops present second)
    (hfresh : ∀ v ∈ first.own ++ second.own, v.id ∉ present) :
    c.Carries loops present (ifElseCode inner otherwise done condition first second) := by
  obtain ⟨env₁, henv₁, hpasses₁⟩ := hfirst
  obtain ⟨env₂, henv₂, hpasses₂⟩ := hsecond
  refine ⟨(inner, present) :: (env₁ ++ (otherwise, present) :: (env₂ ++ [(done, present)])),
    by simp [henv₁, henv₂], fun atLabel hat hleaves rest hrest => ?_⟩
  simp only [forall_mem_cons, forall_mem_append] at hat
  obtain ⟨hinner, hat₁, hotherwise, hat₂, hdone, -⟩ := hat
  rw [flat_ifElseCode hkeeps₁ hkeeps₂]
  simp only [append_assoc, cons_append, nil_append]
  refine checks_gotoIf hcondition hinner (.refl _) (checks_goto hotherwise (.refl _) ?_)
  refine checks_label hinner (.refl _) (hpasses₁ atLabel hat₁ hleaves _ ?_)
  refine checks_goto hdone (subset_declaring _ _) (checks_label hotherwise (subset_declaring _ _) ?_)
  refine hpasses₂ atLabel hat₂ hleaves _ (checks_label hdone (subset_declaring _ _) ?_)
  exact checks_deletions hfresh hrest (.refl _)

/-- In a `for` loop the variable of the initial statement has a value from its declaration on. -/
lemma certified_forCode (hkeeps₁ : initial.Keeps) (hkeeps₂ : action.Keeps) (hkeeps₃ : body.Keeps)
    (hcondition : ∀ a ∈ condition.accesses, c.Permits (declaring initial.own present) a)
    (hinitial : c.Carries loops present initial)
    (haction : c.Carries loops (declaring initial.own present) action)
    (hbody : c.Carries (some labels) (declaring initial.own present) body)
    (hfresh₁ : ∀ v ∈ initial.own, v.id ∉ present)
    (hfresh₂ : ∀ v ∈ body.own ++ action.own, v.id ∉ declaring initial.own present) :
    c.Carries loops present
      (forCode test start initial condition action body labels (declared? initial)) := by
  obtain ⟨env₁, henv₁, hpasses₁⟩ := hinitial
  obtain ⟨env₂, henv₂, hpasses₂⟩ := haction
  obtain ⟨env₃, henv₃, hpasses₃⟩ := hbody
  -- the variables that have a value at all labels of the loop
  generalize hround : declaring initial.own present = round at *
  have hsub : present ⊆ round := hround ▸ subset_declaring _ _
  refine ⟨env₁ ++ (start, round) :: (env₃ ++ (labels.onContinue, round) :: (env₂ ++
    [(test, round), (labels.onBreak, round)])), by simp [henv₁, henv₂, henv₃],
    fun atLabel hat hleaves rest hrest => ?_⟩
  simp only [forall_mem_cons, forall_mem_append] at hat
  obtain ⟨hat₁, hstart, hat₃, hcontinue, hat₂, htest, hbreak, -⟩ := hat
  have hbodyPasses := hpasses₃ atLabel hat₃ (subset_of_leavesTo hbreak hcontinue)
  have hactionPasses := hpasses₂ atLabel hat₂ fun label hlabel =>
    List.Subset.trans (hleaves label hlabel) hsub
  rw [flat_forCode hkeeps₁ hkeeps₂ hkeeps₃]
  simp only [append_assoc, cons_append, nil_append]
  refine hpasses₁ atLabel hat₁ hleaves _ (checks_goto htest (.refl _) ?_)
  refine checks_label hstart (.refl _) (hbodyPasses _ ?_)
  refine checks_label hcontinue (subset_declaring _ _) (hactionPasses _ ?_)
  refine checks_deletions hfresh₂ ?_ (subset_declaring _ _)
  refine checks_label htest (.refl _) (checks_gotoIf hcondition hstart (.refl _) ?_)
  exact checks_label hbreak (.refl _) (checks_deletions hfresh₁ hrest hsub)

lemma certified_countingCode {bound iterator : Var} {lower upper : Expr} (hkeeps : body.Keeps)
    (hupper : ∀ a ∈ upper.accesses, c.Permits present a)
    (hlower : ∀ a ∈ lower.accesses, c.Permits present a)
    (hbody : c.Carries (some labels) (declaring [iterator, bound] present) body)
    (hapart : Apart present ([bound, iterator] ++ body.vars)) :
    c.Carries loops present (countingCode bound test start iterator lower upper body labels) := by
  obtain ⟨env, henv, hpasses⟩ := hbody
  have hbound : bound.isGlobal = false := hapart.locals bound (by simp)
  have hiterator : iterator.isGlobal = false := hapart.locals iterator (by simp)
  have hlower' : ∀ a ∈ lower.accesses, c.Permits (bound.id :: present) a :=
    fun a ha => (hlower a ha).mono (subset_cons_self _ _)
  have hread : c.Permits (declaring [iterator, bound] present) (.read iterator) ∧
      c.Permits (declaring [iterator, bound] present) (.read bound) := by
    refine ⟨.inl ?_, .inl ?_⟩
    · rw [hiterator, if_neg Bool.false_ne_true]
      exact mem_cons_self
    · rw [hbound, if_neg Bool.false_ne_true]
      exact mem_cons_of_mem _ mem_cons_self
  have hfresh : ∀ v ∈ body.own, v.id ∉ declaring [iterator, bound] present := by
    have hright : Apart (declaring [iterator, bound] present) body.vars := hapart.right (by simp)
    exact fun v hv => hright.fresh v (own_subset_vars body hv)
  have hsub := subset_declaring [iterator, bound] present
  have hdeclared : iterator.id :: bound.id :: present = declaring [iterator, bound] present := rfl
  generalize declaring [iterator, bound] present = round at *
  refine ⟨(start, round) :: (env ++ [(labels.onContinue, round), (test, round),
    (labels.onBreak, round)]), by simp [henv], fun atLabel hat _ rest hrest => ?_⟩
  simp only [forall_mem_cons, forall_mem_append] at hat
  obtain ⟨hstart, hat, hcontinue, htest, hbreak, -⟩ := hat
  have hround := hpasses atLabel hat (subset_of_leavesTo hbreak hcontinue)
  -- both are deleted after the loop
  have hend : c.Checks atLabel round (deletions [bound, iterator] ++ rest) :=
    checks_deletions hapart.left.fresh hrest hsub
  rw [flat_countingCode hkeeps]
  simp only [append_assoc, cons_append, nil_append]
  refine checks_declare hbound hupper (checks_declare hiterator hlower' ?_)
  rw [hdeclared]
  refine checks_goto htest (.refl _) (checks_label hstart (.refl _) (hround _ ?_))
  refine checks_label hcontinue (subset_declaring _ _) ⟨?_, checks_deletions hfresh ?_ (.refl _)⟩
  · simp only [Stmt.ownAccesses, forall_mem_cons]
    exact ⟨hread.1, hread.2, trivial, forall_mem_nil _⟩
  · refine checks_label htest (.refl _) (checks_gotoIf ?_ hstart (.refl _) ?_)
    · simp only [Expr.accesses, cons_append, nil_append, forall_mem_cons]
      exact ⟨hread.1, hread.2, forall_mem_nil _⟩
    · exact checks_label hbreak (.refl _) hend

end Forms

/-! ### Statements -/

/-- A lowered form has the declaration of the statement, and leads from where some variables have a
value to where the declared one has one as well. -/
structure Lowers (c : Contract) (stmt low : Stmt) : Prop where
  declared : declared? low = declared? stmt
  keeps : stmt.Keeps → low.Keeps
  certified {loops : Option LoopLabels} {visible : List Var} {present : List VarId} :
    Structured loops stmt → c.Fits visible present stmt → Apart present low.vars →
    c.Carries loops present low

/-- The same for statements one after the other. -/
structure LowersAll (c : Contract) (stmts lows : List Stmt) : Prop where
  keeps : (∀ stmt ∈ stmts, stmt.Keeps) → ∀ low ∈ lows, low.Keeps
  certified {loops : Option LoopLabels} {visible : List Var} {present : List VarId} :
    (∀ stmt ∈ stmts, Structured loops stmt) → c.FitsAll visible present stmts →
    Apart present (lows.flatMap Stmt.vars) →
    c.Certified loops present (lows.flatMap Stmt.labels) (lows.flatMap Stmt.flat)
      (declaring (lows.flatMap Stmt.own) present)

lemma Lowers.own {stmt : Stmt} (h : c.Lowers stmt low) : low.own = stmt.own := by
  rw [Stmt.own, Stmt.own, h.declared]

section Lowers

variable {inner otherwise done test start : Label} {condition : Expr} {labels : LoopLabels}

variable {stmt body low₁ low₂ : Stmt} {bound iterator : Var} {lows stmts : List Stmt}

lemma lowers_simple (h : stmt.isLowered = true) : c.Lowers stmt stmt := by
  refine ⟨rfl, id, fun {loops visible present} hstructured hfits hapart => ?_⟩
  have hpermits : ∀ a ∈ stmt.ownAccesses, c.Permits present a := by
    have hwithin := var_mem_of_isLowered h hfits.within
    rw [accesses_of_isLowered h] at hwithin
    intro a ha
    refine hfits.permits a ?_ (hwithin a ha)
    rwa [accesses_of_isLowered h]
  rw [Carries, (marks_of_isLowered h).1, flat_of_isLowered h]
  cases hstructured with
  | declare v =>
    refine ⟨[], rfl, fun atLabel _ _ rest hrest => ?_⟩
    exact checks_declare (hapart.locals v mem_cons_self) hpermits hrest
  | ret | expr => exact ⟨[], rfl, fun atLabel _ _ rest hrest => ⟨hpermits, hrest⟩⟩
  | onBreak =>
    refine ⟨[], rfl, fun atLabel _ hleaves rest hrest => ?_⟩
    exact checks_goto rfl (hleaves _ (leavesTo_some.mpr (.inl rfl))) hrest
  | onContinue =>
    refine ⟨[], rfl, fun atLabel _ hleaves rest hrest => ?_⟩
    exact checks_goto rfl (hleaves _ (leavesTo_some.mpr (.inr rfl))) hrest
  | block | ifThen | ifElse | whileLoop | forLoop | fromTo | loop => cases h

lemma lowersAll_nil : c.LowersAll [] [] :=
  ⟨fun _ => forall_mem_nil _, fun _ _ _ => ⟨[], rfl, fun _ _ _ _ hrest => hrest⟩⟩

lemma lowersAll_cons (h : c.Lowers stmt low) (hs : c.LowersAll stmts lows) :
    c.LowersAll (stmt :: stmts) (low :: lows) := by
  refine ⟨fun hkeeps => ?_, fun {loops visible present} hstructured hfits hapart => ?_⟩
  · rw [forall_mem_cons] at hkeeps ⊢
    exact ⟨h.keeps hkeeps.1, hs.keeps hkeeps.2⟩
  rw [forall_mem_cons] at hstructured
  rw [flatMap_cons] at hapart
  have hnext := hfits.tail fun v hv => hapart.left.locals v (own_subset_vars low (h.own ▸ hv))
  rw [← h.own] at hnext
  obtain ⟨env₁, henv₁, hpasses₁⟩ := h.certified hstructured.1 hfits.head hapart.left
  obtain ⟨env₂, henv₂, hpasses₂⟩ :=
    hs.certified hstructured.2 hnext (hapart.right (own_subset_vars low))
  refine ⟨env₁ ++ env₂, by simp [henv₁, henv₂], fun atLabel hat hleaves rest hrest => ?_⟩
  rw [forall_mem_append] at hat
  rw [flatMap_cons, append_assoc]
  refine hpasses₁ atLabel hat.1 hleaves _ (hpasses₂ atLabel hat.2 (fun label hlabel => ?_) rest ?_)
  · exact List.Subset.trans (hleaves label hlabel) (subset_declaring _ _)
  · refine hrest.mono fun id hid => ?_
    simp only [declaring, flatMap_cons, map_append, mem_append] at hid ⊢
    tauto

lemma lowers_block (h : c.LowersAll stmts lows) : c.Lowers (.block stmts) (.block lows) := by
  refine ⟨rfl, fun _ => trivial, fun {loops visible present} hstructured hfits hapart => ?_⟩
  cases hstructured with
  | block hstructured =>
    have hkeeps := h.keeps fun stmt hstmt => (hstructured stmt hstmt).keeps
    rw [vars_block] at hapart
    obtain ⟨env, henv, hpasses⟩ := h.certified hstructured hfits.all hapart
    refine ⟨env, by rw [henv, labels_block], fun atLabel hat hleaves rest hrest => ?_⟩
    rw [flat_block_of_keeps hkeeps, append_assoc]
    refine hpasses atLabel hat hleaves _ (checks_deletions (fun v hv => ?_) hrest
      (subset_declaring _ _))
    obtain ⟨low, hlow, hv⟩ := mem_flatMap.mp hv
    exact hapart.fresh v (mem_flatMap.mpr ⟨low, hlow, own_subset_vars low hv⟩)

lemma lowers_ifThen {branch : Stmt} (h : c.Lowers branch low) :
    c.Lowers (.ifElse condition branch none) (ifCode inner done condition low) := by
  refine ⟨rfl, fun _ => trivial, fun {loops visible present} hstructured hfits hapart => ?_⟩
  cases hstructured with
  | ifThen _ hstructured =>
    rw [vars_ifCode] at hapart
    have hbranch : c.Fits visible present branch :=
      hfits.inside [] (forall_mem_nil _) (subset_cons_self _ _) hfits.within.2
    refine certified_ifCode (h.keeps hstructured.keeps) ?_ (h.certified hstructured hbranch hapart)
      fun v hv => hapart.fresh v (own_subset_vars low hv)
    exact hfits.expr [] (forall_mem_nil _) (by simp) hfits.within.1

lemma lowers_ifElse {first second : Stmt} (h₁ : c.Lowers first low₁) (h₂ : c.Lowers second low₂) :
    c.Lowers (.ifElse condition first (some second))
      (ifElseCode inner otherwise done condition low₁ low₂) := by
  refine ⟨rfl, fun _ => trivial, fun {loops visible present} hstructured hfits hapart => ?_⟩
  cases hstructured with
  | ifElse _ hstructured₁ hstructured₂ =>
    rw [vars_ifElseCode] at hapart
    have hfirst : c.Fits visible present first := hfits.inside [] (forall_mem_nil _)
      (subset_cons_of_subset _ (subset_append_left _ _)) hfits.within.2.1
    have hsecond : c.Fits visible present second := hfits.inside [] (forall_mem_nil _)
      (subset_cons_of_subset _ (subset_append_right _ _)) hfits.within.2.2
    refine certified_ifElseCode (h₁.keeps hstructured₁.keeps) (h₂.keeps hstructured₂.keeps) ?_
      (h₁.certified hstructured₁ hfirst hapart.left)
      (h₂.certified hstructured₂ hsecond (hapart.right (nil_subset _)))
      fun v hv => hapart.fresh v ?_
    · exact hfits.expr [] (forall_mem_nil _) (by simp) hfits.within.1
    · exact (mem_append.mp hv).elim (fun hv => mem_append_left _ (own_subset_vars _ hv))
        fun hv => mem_append_right _ (own_subset_vars _ hv)

lemma lowers_whileLoop (h : c.Lowers body low) :
    c.Lowers (.whileLoop condition body labels) (whileCode start condition low labels) := by
  refine ⟨rfl, fun _ => trivial, fun {loops visible present} hstructured hfits hapart => ?_⟩
  cases hstructured with
  | whileLoop _ hstructured =>
    rw [vars_whileCode] at hapart
    have hbody : c.Fits visible present body :=
      hfits.inside [] (forall_mem_nil _) (subset_cons_self _ _) hfits.within.2
    refine certified_whileCode (h.keeps hstructured.keeps) ?_ (h.certified hstructured hbody hapart)
      fun v hv => hapart.fresh v (own_subset_vars low hv)
    exact hfits.expr [] (forall_mem_nil _) (by simp) hfits.within.1

lemma lowers_forLoop {initial action low₃ : Stmt} (h₁ : c.Lowers initial low₁)
    (h₂ : c.Lowers body low₂) (h₃ : c.Lowers action low₃) :
    c.Lowers (.forLoop initial condition action body labels)
      (forCode test start low₁ condition low₃ low₂ labels (declared? initial)) := by
  refine ⟨rfl, fun _ => trivial, fun {loops visible present} hstructured hfits hapart => ?_⟩
  cases hstructured with
  | forLoop _ hstructured₁ hstructured₃ hstructured₂ =>
    rw [vars_forCode] at hapart
    have hlocals : ∀ v ∈ initial.own, v.isGlobal = false := fun v hv =>
      hapart.left.locals v (own_subset_vars low₁ (h₁.own ▸ hv))
    have hround := hapart.right (own_subset_vars low₁)
    have hinitial : c.Fits visible present initial :=
      hfits.inside [] (forall_mem_nil _) (by simp [Stmt.parts]) hfits.within.1
    have haction : c.Fits (initial.own ++ visible) (declaring initial.own present) action :=
      hfits.inside initial.own hlocals (subset_cons_of_subset _
        (subset_append_of_subset_left _ (subset_append_right _ _))) hfits.within.2.2.1
    have hcondition := hfits.expr initial.own hlocals (by simp) hfits.within.2.1
    have hbody := hfits.early_body hlocals
    rw [← h₁.own] at hcondition hbody haction
    rw [← h₁.declared]
    refine certified_forCode (h₁.keeps hstructured₁.keeps) (h₃.keeps hstructured₃.keeps)
      (h₂.keeps hstructured₂.keeps) hcondition (h₁.certified hstructured₁ hinitial hapart.left)
      (h₃.certified hstructured₃ haction (hround.right (nil_subset _)))
      (h₂.certified hstructured₂ hbody hround.left)
      (fun v hv => hapart.left.fresh v (own_subset_vars low₁ hv)) fun v hv => hround.fresh v ?_
    exact (mem_append.mp hv).elim (fun hv => mem_append_left _ (own_subset_vars _ hv))
      fun hv => mem_append_right _ (own_subset_vars _ hv)

lemma lowers_fromTo {lower upper : Expr} (h : c.Lowers body low) :
    c.Lowers (.fromTo iterator lower upper body labels)
      (countingCode bound test start iterator lower upper low labels) := by
  refine ⟨rfl, fun _ => trivial, fun {loops visible present} hstructured hfits hapart => ?_⟩
  cases hstructured with
  | fromTo _ _ _ hstructured =>
    rw [vars_countingCode] at hapart
    have hsplit : Apart present ([bound, iterator] ++ low.vars) := hapart
    have hlocals : ∀ v ∈ [iterator], v.isGlobal = false :=
      forall_mem_singleton.mpr (hsplit.locals iterator (by simp))
    have hbody := hfits.inside [iterator] hlocals (subset_cons_self _ _) hfits.within.2.2
    have hround : c.Fits ([iterator] ++ visible) (declaring [iterator, bound] present) body :=
      hbody.mono (cons_subset_cons _ (subset_cons_self _ _))
    refine certified_countingCode (h.keeps hstructured.keeps) ?_ ?_
      (h.certified hstructured hround (hsplit.right (by simp))) hsplit
    · exact hfits.expr [] (forall_mem_nil _) (by simp) hfits.within.2.1
    · exact hfits.expr [] (forall_mem_nil _) (by simp) hfits.within.1

/-- A loop with a count has the code of one from zero, of which the body does not see the
iterator. -/
lemma lowers_loop {count : Expr}
    (h : c.Lowers (.fromTo iterator (.int 0 count.span) count body labels) low) :
    c.Lowers (.loop iterator count body labels) low := by
  refine ⟨h.declared, fun _ => h.keeps trivial, fun hstructured hfits hapart => ?_⟩
  cases hstructured with
  | loop _ _ hstructured =>
    refine h.certified (.fromTo _ _ _ hstructured) ⟨⟨forall_mem_nil _, hfits.within.1,
      hfits.within.2.mono (subset_cons_self _ _)⟩, ?_, fun v hv => hfits.early v ?_⟩ hapart
    · rw [accesses_fromTo]
      exact hfits.permits
    · obtain ⟨initial, condition, action, body, labels, hloop, hearly⟩ := hv
      exact ⟨initial, condition, action, body, labels, by simpa [Stmt.parts] using hloop, hearly⟩

/-- Lowering leads from where some variables have a value to where the declared one has one too. -/
lemma lowers_lower (stmt : Stmt) (ids : Ids) : c.Lowers stmt (stmt.lower.run ids).1 := by
  apply lower_induct (P := fun _ stmt low _ => c.Lowers stmt low)
    (Q := fun _ stmts lows _ => c.LowersAll stmts lows)
  case simple => exact lowers_simple
  case nil => exact lowersAll_nil
  case cons => exact lowersAll_cons
  case block => exact lowers_block
  case ifThen => exact lowers_ifThen
  case ifElse => exact lowers_ifElse
  case whileLoop => exact lowers_whileLoop
  case forLoop => exact lowers_forLoop
  case fromTo => exact lowers_fromTo
  case loop => exact lowers_loop

/-- Distinct labels can be given variables one by one. -/
lemma exists_atLabel {env : List (Label × List VarId)} (h : (env.map (·.1)).Nodup) :
    ∃ atLabel : Label → List VarId, ∀ entry ∈ env, atLabel entry.1 = entry.2 := by
  induction env with
  | nil => exact ⟨fun _ => [], forall_mem_nil _⟩
  | cons entry env ih =>
    rw [map_cons, nodup_cons] at h
    obtain ⟨atLabel, hat⟩ := ih h.2
    refine ⟨Function.update atLabel entry.1 entry.2, forall_mem_cons.mpr
      ⟨Function.update_self .., fun other hother => ?_⟩⟩
    rw [Function.update_of_ne, hat other hother]
    exact fun heq => h.1 (heq ▸ mem_map_of_mem hother)

/-- **The lowered code of a body keeps to a contract** if what the body touches is permitted where
it is visible and early reads are allowed to fail. -/
theorem checks_lower {ids : Ids} {visible : List Var} (hstructured : Structured none body)
    (hfits : c.Fits visible present body) (hapart : Apart present (body.lower.run ids).1.vars)
    (hlabels : (body.lower.run ids).1.labels.Nodup) :
    ∃ atLabel, c.Checks atLabel present (body.lower.run ids).1.flat := by
  obtain ⟨env, henv, hpasses⟩ := (lowers_lower body ids).certified hstructured hfits hapart
  rw [← henv] at hlabels
  obtain ⟨atLabel, hat⟩ := exists_atLabel hlabels
  have hchecks := hpasses atLabel hat (fun _ ⟨_, hnone, _⟩ => nomatch hnone) [] trivial
  rw [append_nil] at hchecks
  exact ⟨atLabel, hchecks⟩

end Lowers

end Contract

end Parcel
