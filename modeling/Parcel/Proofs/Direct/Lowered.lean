import Parcel.Proofs.Direct.Control

/-!
# Lowered statements do what direct execution does

The flat code of the lowered form of a structured statement simulates the direct execution of the
statement, by induction along lowering. Each form of jump code takes this from the statements
inside.
-/

namespace Parcel

open Code List

open Exec

namespace Pairing

variable {labels : LoopLabels} {low stmt : Stmt}

/-- What is around the code of a statement: the hidden variables in use are older than the counters,
and the ends of the loop around it are in the code. -/
structure Around (w : Pairing) (loops : Option LoopLabels) (bounds : Bounds) (ids : Ids) :
    Prop where
  hidden : w.hidden ≤ ids.nextVar
  above : w.Hides bounds
  taken : ∀ entry ∈ bounds, entry.1.index < ids.nextVar
  leaves : ∀ label, LeavesTo loops label →
    ∃ q, (labelPositions w.code)[label.index]? = some q

/-- The statement touches and declares only variables that both executions have. -/
structure Covers (w : Pairing) (stmt : Stmt) : Prop where
  vars : ∀ v ∈ stmt.vars, v.id.index < w.hidden
  accesses : ∀ a ∈ stmt.accesses, w.SharesAccess a

/-- The flat code of a lowered form simulates the direct execution of the statement, wherever it
stands. The counters are those before and after lowering. -/
structure Renders (w : Pairing) (m : Machine) (program : Program) (n : Nat) (ids : Ids)
    (stmt low : Stmt) (ids' : Ids) : Prop where
  reach : ids.nextVar ≤ ids'.nextVar
  declared : declared? low = declared? stmt
  keeps : stmt.Keeps → low.Keeps
  simulates {loops : Option LoopLabels} {bounds : Bounds} {a b : Nat} :
    Structured loops stmt → w.Around loops bounds ids → w.Covers stmt →
    w.CodeAt a low.flat → b = a + low.flat.length →
    w.Simulates (m.withProgram program) (n + 1) bounds a b (stmt.exec m (callTree m n) n)

/-- The same for statements one after the other. -/
structure RendersAll (w : Pairing) (m : Machine) (program : Program) (n : Nat) (ids : Ids)
    (stmts lows : List Stmt) (ids' : Ids) : Prop where
  reach : ids.nextVar ≤ ids'.nextVar
  own : lows.flatMap Stmt.own = stmts.flatMap Stmt.own
  keeps : (∀ stmt ∈ stmts, stmt.Keeps) → ∀ low ∈ lows, low.Keeps
  simulates {loops : Option LoopLabels} {bounds : Bounds} {a b : Nat} :
    (∀ stmt ∈ stmts, Structured loops stmt) → w.Around loops bounds ids →
    (∀ stmt ∈ stmts, w.Covers stmt) → w.CodeAt a (lows.flatMap Stmt.flat) →
    b = a + (lows.flatMap Stmt.flat).length →
    w.Simulates (m.withProgram program) (n + 1) bounds a b (execAll m (callTree m n) n stmts)

variable {w : Pairing} {m : Machine} {program : Program} {n : Nat} {ids ids' : Ids}
  {loops : Option LoopLabels} {bounds : Bounds}

lemma Around.later (h : w.Around loops bounds ids) (hle : ids.nextVar ≤ ids'.nextVar) :
    w.Around loops bounds ids' :=
  ⟨Nat.le_trans h.hidden hle, h.above, fun entry hentry => Nat.lt_of_lt_of_le (h.taken entry hentry) hle,
    h.leaves⟩

lemma Around.inside (h : w.Around loops bounds ids) {p q : Nat}
    (hbreak : w.code[p]? = some (.label labels.onBreak))
    (hcontinue : w.code[q]? = some (.label labels.onContinue)) :
    w.Around (some labels) bounds ids := by
  refine ⟨h.hidden, h.above, h.taken, fun label hlabel => ?_⟩
  rcases leavesTo_some.mp hlabel with rfl | rfl
  · exact ⟨p, w.placed hbreak⟩
  · exact ⟨q, w.placed hcontinue⟩

/-- The next hidden variable is in use. -/
lemma Around.hide (h : w.Around loops bounds ids) (name : String) (type : Ty) (goal : Value)
    (labels : Nat) :
    w.Around loops (((ids.localVar name type).id, goal) :: bounds) (ids.skip 1 labels) := by
  refine ⟨Nat.le_succ_of_le h.hidden, ?_, ?_, h.leaves⟩
  · exact forall_mem_cons.mpr ⟨h.hidden, h.above⟩
  · exact forall_mem_cons.mpr ⟨Nat.lt_succ_self _,
      fun entry hentry => Nat.lt_succ_of_lt (h.taken entry hentry)⟩

lemma Around.ne_localVar (h : w.Around loops bounds ids) (name : String) (type : Ty) :
    ∀ entry ∈ bounds, entry.1 ≠ (ids.localVar name type).id := by
  intro entry hentry heq
  have hlt := h.taken entry hentry
  rw [heq] at hlt
  exact Nat.lt_irrefl _ hlt

lemma Renders.own (h : w.Renders m program n ids stmt low ids') : low.own = stmt.own := by
  rw [Stmt.own, Stmt.own, h.declared]

lemma Covers.own (h : w.Covers stmt) : ∀ v ∈ stmt.own, v.id.index < w.hidden :=
  fun v hv => h.vars v (own_subset_vars stmt hv)

section Forms

variable (hcalls : Corresponds m (m.withProgram program) n)
include hcalls

variable {condition : Expr} {ids₁ : Ids} {lows stmts : List Stmt}
  {low₁ low₂ body : Stmt}

lemma tests_holds (haround : w.Around loops bounds ids)
    (he : ∀ a ∈ condition.accesses, w.SharesAccess a) (p : Nat) (label : Label) :
    w.Tests (m.withProgram program) n bounds p (holds m (callTree m n) condition) condition label :=
  fun _ hq _ _ htwin => mirror_gotoIf hcalls haround.above he hq htwin

lemma renders_simple (stmt : Stmt) (h : stmt.isLowered = true) :
    w.Renders m program n ids stmt stmt ids := by
  refine ⟨Nat.le_refl _, rfl, id, ?_⟩
  intro loops bounds a b hstructured haround hcovers hcode hb
  rw [flat_of_isLowered h, codeAt_cons] at hcode
  rw [flat_of_isLowered h] at hb
  subst hb
  have haccesses := hcovers.accesses
  rw [accesses_of_isLowered h] at haccesses
  cases hstructured with
  | declare v =>
    refine simulates_declare hcalls haround.above (.inr ?_) ?_ hcode.1
    · exact hcovers.own v (mem_singleton.mpr rfl)
    · rintro e ⟨⟩
      exact haccesses
  | ret =>
    refine simulates_ret hcalls haround.above ?_ hcode.1
    rintro e ⟨⟩
    exact haccesses
  | expr => exact simulates_expr hcalls haround.above haccesses hcode.1
  | onBreak labels =>
    obtain ⟨q, hq⟩ := haround.leaves labels.onBreak (leavesTo_some.mpr (.inl rfl))
    exact fun s t htwin => ⟨t.moveTo q, ⟨q, hq, htwin.moveTo⟩, (leadsOn_goto hcode.1 hq htwin).leads⟩
  | onContinue labels =>
    obtain ⟨q, hq⟩ := haround.leaves labels.onContinue (leavesTo_some.mpr (.inr rfl))
    exact fun s t htwin => ⟨t.moveTo q, ⟨q, hq, htwin.moveTo⟩, (leadsOn_goto hcode.1 hq htwin).leads⟩
  | block | ifThen | ifElse | whileLoop | forLoop | fromTo | loop => cases h

omit hcalls in
lemma rendersAll_nil : w.RendersAll m program n ids [] [] ids := by
  refine ⟨Nat.le_refl _, rfl, fun h => h, ?_⟩
  intro loops bounds a b _ _ _ _ hb
  subst hb
  exact fun s t htwin => ⟨t, htwin, Leads.refl _ _ _⟩

omit hcalls in
lemma rendersAll_cons (h : w.Renders m program n ids stmt low ids₁)
    (hs : w.RendersAll m program n ids₁ stmts lows ids') :
    w.RendersAll m program n ids (stmt :: stmts) (low :: lows) ids' := by
  refine ⟨Nat.le_trans h.reach hs.reach, ?_, ?_, ?_⟩
  · rw [flatMap_cons, flatMap_cons, h.own, hs.own]
  · intro hkeeps
    rw [forall_mem_cons] at hkeeps ⊢
    exact ⟨h.keeps hkeeps.1, hs.keeps hkeeps.2⟩
  · intro loops bounds a b hstructured haround hcovers hcode hb
    rw [forall_mem_cons] at hstructured hcovers
    rw [flatMap_cons, codeAt_append] at hcode
    rw [flatMap_cons, length_append, ← Nat.add_assoc] at hb
    exact (h.simulates hstructured.1 haround hcovers.1 hcode.1 rfl).andThen
      (hs.simulates hstructured.2 (haround.later h.reach) hcovers.2 hcode.2 hb)

omit hcalls in
lemma renders_block (h : w.RendersAll m program n ids stmts lows ids') :
    w.Renders m program n ids (.block stmts) (.block lows) ids' := by
  refine ⟨h.reach, rfl, fun _ => trivial, ?_⟩
  intro loops bounds a b hstructured haround hcovers hcode hb
  cases hstructured with
  | block hstructured =>
    have hkeeps := h.keeps fun stmt hstmt => (hstructured stmt hstmt).keeps
    rw [flat_block_of_keeps hkeeps, h.own, codeAt_append] at hcode
    rw [flat_block_of_keeps hkeeps, h.own, length_append, length_deletions,
      ← Nat.add_assoc] at hb
    subst hb
    have hcoversAll : ∀ stmt ∈ stmts, w.Covers stmt := by
      intro stmt hstmt
      refine ⟨fun v hv => hcovers.vars v ?_, fun acc hacc => hcovers.accesses acc ?_⟩
      · rw [vars_block]
        exact mem_flatMap.mpr ⟨stmt, hstmt, hv⟩
      · rw [accesses_block]
        exact mem_flatMap.mpr ⟨stmt, hstmt, hacc⟩
    have hown : ∀ v ∈ stmts.flatMap Stmt.own, v.id.index < w.hidden := by
      intro v hv
      obtain ⟨stmt, hstmt, hv⟩ := mem_flatMap.mp hv
      exact (hcoversAll stmt hstmt).own v hv
    have hall := h.simulates hstructured haround hcoversAll hcode.1 rfl
    exact fun s t htwin => (hall s t htwin).scope haround.above hown hcode.2

lemma renders_ifThen {branch : Stmt}
    (h : w.Renders m program n (ids.skip 0 2) branch low ids') :
    w.Renders m program n ids (.ifElse condition branch none)
      (ifCode (ids.labelAt 0) (ids.labelAt 1) condition low) ids' := by
  refine ⟨h.reach, rfl, fun _ => trivial, ?_⟩
  intro loops bounds a b hstructured haround hcovers hcode hb
  cases hstructured with
  | ifThen _ hbranch =>
    obtain ⟨hvars, haccesses⟩ := hcovers
    rw [vars_ifThen] at hvars
    rw [accesses_ifThen, forall_mem_append] at haccesses
    have hcovers : w.Covers branch := ⟨hvars, haccesses.2⟩
    rw [flat_ifCode (h.keeps hbranch.keeps), h.own] at hcode hb
    simp only [codeAt_append, codeAt_cons, codeAt_nil, and_true, length_append,
      length_cons, length_nil, length_deletions, Nat.zero_add, ← Nat.add_assoc] at hcode hb
    subst hb
    obtain ⟨⟨⟨⟨hjump, hskip, hinner⟩, hbody⟩, hdone⟩, hdeletions⟩ := hcode
    have htest := tests_holds hcalls haround haccesses.1 a (ids.labelAt 0)
    have hfirst := h.simulates hbranch (haround.later (ids.reach_skip 0 2).vars) hcovers hbody rfl
    have hif := simulates_ifThen hjump hinner htest hskip hfirst hdone
    exact fun s t htwin => (hif s t htwin).scope haround.above hcovers.own hdeletions

lemma renders_ifElse {first second : Stmt}
    (h₁ : w.Renders m program n (ids.skip 0 3) first low₁ ids₁)
    (h₂ : w.Renders m program n ids₁ second low₂ ids') :
    w.Renders m program n ids (.ifElse condition first (some second))
      (ifElseCode (ids.labelAt 0) (ids.labelAt 1) (ids.labelAt 2) condition low₁ low₂) ids' := by
  refine ⟨Nat.le_trans h₁.reach h₂.reach, rfl, fun _ => trivial, ?_⟩
  intro loops bounds a b hstructured haround hcovers hcode hb
  cases hstructured with
  | ifElse _ hs₁ hs₂ =>
    obtain ⟨hvars, haccesses⟩ := hcovers
    rw [vars_ifElse, forall_mem_append] at hvars
    rw [accesses_ifElse, forall_mem_append, forall_mem_append] at haccesses
    have hcovers₁ : w.Covers first := ⟨hvars.1, haccesses.2.1⟩
    have hcovers₂ : w.Covers second := ⟨hvars.2, haccesses.2.2⟩
    rw [flat_ifElseCode (h₁.keeps hs₁.keeps) (h₂.keeps hs₂.keeps), h₁.own, h₂.own] at hcode hb
    simp only [codeAt_append, codeAt_cons, codeAt_nil, and_true, length_append,
      length_cons, length_nil, length_deletions, Nat.zero_add, ← Nat.add_assoc] at hcode hb
    subst hb
    obtain ⟨⟨⟨⟨⟨⟨hjump, hskip, hinner⟩, hcode₁⟩, hend, hotherwise⟩, hcode₂⟩, hdone⟩, hdeletions⟩ :=
      hcode
    have hskipped := (ids.reach_skip 0 3).vars
    have htest := tests_holds hcalls haround haccesses.1 a (ids.labelAt 0)
    have hfirst := h₁.simulates hs₁ (haround.later hskipped) hcovers₁ hcode₁ rfl
    have hsecond := h₂.simulates hs₂ (haround.later (Nat.le_trans hskipped h₁.reach)) hcovers₂
      hcode₂ rfl
    have hif := simulates_ifElse hjump hinner htest hskip hfirst hend hotherwise hsecond hdone
    have hown : ∀ v ∈ first.own ++ second.own, v.id.index < w.hidden :=
      forall_mem_append.mpr ⟨hcovers₁.own, hcovers₂.own⟩
    intro s t htwin
    have hscoped := (hif s t htwin).scope haround.above hown hdeletions
    rwa [length_append, ← Nat.add_assoc] at hscoped

lemma renders_whileLoop (h : w.Renders m program n (ids.skip 0 1) body low ids') :
    w.Renders m program n ids (.whileLoop condition body labels)
      (whileCode (ids.labelAt 0) condition low labels) ids' := by
  refine ⟨h.reach, rfl, fun _ => trivial, ?_⟩
  intro loops bounds a b hstructured haround hcovers hcode hb
  cases hstructured with
  | whileLoop _ hbody =>
    obtain ⟨hvars, haccesses⟩ := hcovers
    rw [vars_whileLoop] at hvars
    rw [accesses_whileLoop, forall_mem_append] at haccesses
    have hcovers : w.Covers body := ⟨hvars, haccesses.2⟩
    rw [flat_whileCode (h.keeps hbody.keeps), h.own] at hcode hb
    simp only [codeAt_append, codeAt_cons, codeAt_nil, and_true, length_append,
      length_cons, length_nil, length_deletions, Nat.zero_add, ← Nat.add_assoc] at hcode hb
    subst hb
    obtain ⟨⟨⟨⟨hgoto, hstart⟩, hinner⟩, hcontinue, hjump, hbreak⟩, hdeletions⟩ := hcode
    have hround := h.simulates hbody
      ((haround.inside hbreak hcontinue).later (ids.reach_skip 0 1).vars) hcovers hinner rfl
    have hcaught : w.Simulates (m.withProgram program) (n + 1) bounds (a + 2) (a + 2 + low.flat.length)
        (catching labels.onContinue (body.exec m (callTree m n) n)) :=
      fun s t htwin => (hround s t htwin).catching (w.placed hcontinue)
    have hrounds := simulates_rounds hstart hcaught hcontinue hjump
      (tests_holds hcalls haround haccesses.1 _ _) hgoto hbreak
    exact fun s t htwin => (hrounds s t htwin).scope haround.above hcovers.own hdeletions

lemma renders_forLoop {ids₂ : Ids} {initial action low₃ : Stmt}
    (h₁ : w.Renders m program n (ids.skip 0 1) initial low₁ ids₁)
    (h₂ : w.Renders m program n (ids₁.skip 0 1) body low₂ ids₂)
    (h₃ : w.Renders m program n ids₂ action low₃ ids') :
    w.Renders m program n ids (.forLoop initial condition action body labels)
      (forCode (ids.labelAt 0) (ids₁.labelAt 0) low₁ condition low₃ low₂ labels
        (declared? initial)) ids' := by
  have hreach₁ : ids.nextVar ≤ ids₁.nextVar := h₁.reach
  have hreach₂ : ids₁.nextVar ≤ ids₂.nextVar := h₂.reach
  refine ⟨Nat.le_trans (Nat.le_trans hreach₁ hreach₂) h₃.reach, rfl, fun _ => trivial, ?_⟩
  intro loops bounds a b hstructured haround hcovers hcode hb
  cases hstructured with
  | forLoop _ hs₁ hs₃ hs₂ =>
    obtain ⟨hvars, haccesses⟩ := hcovers
    simp only [vars_forLoop, forall_mem_append] at hvars
    simp only [accesses_forLoop, forall_mem_append] at haccesses
    have hcovers₁ : w.Covers initial := ⟨hvars.1, haccesses.2.1⟩
    have hcovers₂ : w.Covers body := ⟨hvars.2.2, haccesses.2.2.2⟩
    have hcovers₃ : w.Covers action := ⟨hvars.2.1, haccesses.2.2.1⟩
    rw [← h₁.declared, flat_forCode (h₁.keeps hs₁.keeps) (h₃.keeps hs₃.keeps)
      (h₂.keeps hs₂.keeps), h₁.own, h₂.own, h₃.own] at hcode hb
    simp only [codeAt_append, codeAt_cons, codeAt_nil, and_true, length_append,
      length_cons, length_nil, length_deletions, Nat.zero_add, ← Nat.add_assoc] at hcode hb
    subst hb
    obtain ⟨⟨⟨⟨⟨⟨⟨hcode₁, hgoto, hstart⟩, hcode₂⟩, hcontinue⟩, hcode₃⟩, hdeletions₁⟩, htest, hjump,
      hbreak⟩, hdeletions₂⟩ := hcode
    have haround₁ := haround.later hreach₁
    have hinitial := h₁.simulates hs₁ (haround.later (ids.reach_skip 0 1).vars) hcovers₁ hcode₁ rfl
    have hbody := h₂.simulates hs₂
      ((haround₁.inside hbreak hcontinue).later (ids₁.reach_skip 0 1).vars) hcovers₂ hcode₂ rfl
    have haction := h₃.simulates hs₃ (haround₁.later hreach₂) hcovers₃ hcode₃ rfl
    have hown : ∀ v ∈ body.own ++ action.own, v.id.index < w.hidden :=
      forall_mem_append.mpr ⟨hcovers₂.own, hcovers₃.own⟩
    -- `continue` leads to the action, and the test follows on the deletions
    have hround : w.Simulates (m.withProgram program) (n + 1) bounds (a + low₁.flat.length + 2)
        (a + low₁.flat.length + 2 + low₂.flat.length + 1 + low₃.flat.length + body.own.length +
          action.own.length) (scope (body.own ++ action.own)
          (andThen (catching labels.onContinue (body.exec m (callTree m n) n))
            (action.exec m (callTree m n) n))) := by
      intro s t htwin
      have hcaught := ((hbody s t htwin).catching (w.placed hcontinue)).label hcontinue
      have hscoped := (hcaught.andThen (List.Subset.refl _) haction).scope haround.above hown
        hdeletions₁
      rwa [length_append, ← Nat.add_assoc] at hscoped
    have hrounds := simulates_rounds hstart hround htest hjump
      (tests_holds hcalls haround haccesses.1 _ _) hgoto hbreak
    exact fun s t htwin => (hinitial.andThen hrounds s t htwin).scope haround.above hcovers₁.own
      hdeletions₂

lemma renders_fromTo {iterator : Var} {lower upper : Expr}
    (h : w.Renders m program n (ids.skip 1 2) body low ids') :
    w.Renders m program n ids (.fromTo iterator lower upper body labels)
      (countingCode (ids.localVar boundName .int) (ids.labelAt 0) (ids.labelAt 1) iterator lower upper
        low labels) ids' := by
  have hreach : ids.nextVar + 1 ≤ ids'.nextVar := h.reach
  refine ⟨Nat.le_of_succ_le hreach, rfl, fun _ => trivial, ?_⟩
  rintro loops bounds a b ⟨⟩ haround hcovers hcode hb
  rename_i hbody
  obtain ⟨hvars, haccesses⟩ := hcovers
  rw [vars_fromTo, forall_mem_cons] at hvars
  rw [accesses_fromTo, forall_mem_append, forall_mem_append] at haccesses
  have hcovers : w.Covers body := ⟨hvars.2, haccesses.2.2⟩
  rw [flat_countingCode (h.keeps hbody.keeps), h.own] at hcode hb
  simp only [codeAt_append, length_append, length_cons, length_nil,
    length_deletions, Nat.zero_add, ← Nat.add_assoc] at hcode hb
  subst hb
  obtain ⟨⟨⟨⟨hfirst, hinner⟩, hsecond⟩, hdeletions⟩, hlast⟩ := hcode
  have hends := hsecond
  have hends' := hlast
  simp only [codeAt_cons] at hends hends'
  have hround (goal : Value) := h.simulates hbody
    ((haround.inside hends'.2.2.1 hends.1).hide boundName .int goal 2) hcovers hinner rfl
  refine simulates_counting rfl hvars.1 hcalls haround.above haround.hidden
    (haround.ne_localVar _ _) haccesses.2.1 haccesses.1 (fun goal => ?_) hfirst hlast
  exact simulates_round rfl hvars.1 (haround.hide boundName .int goal 0).above hcovers.own
    (hround goal) hsecond hdeletions

omit hcalls in
/-- A loop with a count is executed as one from zero. -/
lemma renders_loop {iterator : Var} {count : Expr}
    (h : w.Renders m program n ids (.fromTo iterator (.int 0 count.span) count body labels) low ids') :
    w.Renders m program n ids (.loop iterator count body labels) low ids' := by
  refine ⟨h.reach, h.declared, fun _ => h.keeps trivial, ?_⟩
  rintro loops bounds a b ⟨⟩ haround hcovers hcode hb
  refine h.simulates (.fromTo _ _ _ ‹_›) haround ⟨hcovers.vars, ?_⟩ hcode hb
  rw [accesses_fromTo]
  exact hcovers.accesses

end Forms

/-- **Lowering renders every statement.** -/
theorem renders_lower (w : Pairing) (hcalls : Corresponds m (m.withProgram program) n)
    (stmt : Stmt) (ids : Ids) :
    w.Renders m program n ids stmt (stmt.lower.run ids).1 (stmt.lower.run ids).2 := by
  apply lower_induct (P := w.Renders m program n) (Q := w.RendersAll m program n)
  case simple => exact renders_simple hcalls _
  case nil => exact rendersAll_nil
  case cons => exact rendersAll_cons
  case block => exact renders_block
  case ifThen => exact renders_ifThen hcalls
  case ifElse => exact renders_ifElse hcalls
  case whileLoop => exact renders_whileLoop hcalls
  case forLoop => exact renders_forLoop hcalls
  case fromTo => exact renders_fromTo hcalls
  case loop => exact renders_loop

end Pairing

end Parcel
