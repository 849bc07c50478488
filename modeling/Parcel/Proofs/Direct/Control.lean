import Parcel.Proofs.Direct.Statements

/-!
# Branches and loops in both executions

The jump code of a branch or of a loop does what direct execution does with it, if the code of the
statements inside does so. The statements inside are given by the actions that their code simulates.
-/

namespace Parcel

open Exec

namespace Pairing

/-- A conditional jump at a position is taken if a test holds. -/
def Tests (w : Pairing) (m : Machine) (n : Nat) (bounds : Bounds) (p : Nat) (test : Exec Bool)
    (condition : Code.Expr) (label : Label) : Prop :=
  ∀ q, (labelPositions w.code)[label.index]? = some q → ∀ s t, w.Twin bounds p s t →
    Mirror n (w.Branched bounds p q) w.Beside (test s) fun k => execute m (call m k) (.gotoIf condition label) t

variable {w : Pairing} {m : Machine} {n a b c d : Nat} {bounds : Bounds} {condition : Code.Expr}
  {test : Exec Bool} {s t : State}

/-- Code after a label does what it does with the label before it. -/
lemma Simulates.label {label : Label} {limit : Nat} {action : Exec Flow}
    (hlabel : w.code[a]? = some (.label label))
    (h : w.Simulates m limit bounds (a + 1) c action) : w.Simulates m limit bounds a c action :=
  fun s _ htwin => (h s _ htwin.moveTo).of_leads (leadsOn_label hlabel htwin).leads

/-! ### Branches -/

section Branches

variable {inner otherwise done : Label} {first second : Exec Flow}
  (hjump : w.code[a]? = some (.gotoIf condition inner))
  (hinner : w.code[a + 2]? = some (.label inner))
  (htest : w.Tests m n bounds a test condition inner)
include hjump hinner htest

/-- A conditional jump leads to one part of the code or to the other. -/
lemma simulates_branch (hfirst : w.Simulates m (n + 1) bounds (a + 2) d first)
    (hsecond : w.Simulates m (n + 1) bounds (a + 1) d second) :
    w.Simulates m (n + 1) bounds a d (do if ← test then first else second) := by
  intro s t htwin
  refine reaches_step hjump htwin (htest _ (w.placed hinner) s t htwin) (Nat.le_refl n) ?_
  rintro taken s₁ _ t₁ ⟨rfl, htwin₁⟩
  cases taken with
  | true => exact (hfirst s₁ _ htwin₁.moveTo).of_le (Nat.le_succ n)
  | false => exact (hsecond s₁ _ htwin₁.moveTo).of_le (Nat.le_succ n)

/-- A branch without an alternative. -/
lemma simulates_ifThen (hskip : w.code[a + 1]? = some (.goto done))
    (hfirst : w.Simulates m (n + 1) bounds (a + 3) c first)
    (hdone : w.code[c]? = some (.label done)) :
    w.Simulates m (n + 1) bounds a (c + 1) (do if ← test then first else return .normal) := by
  refine simulates_branch hjump hinner htest (fun s t htwin => ?_) fun s t htwin => ?_
  · exact (hfirst.label hinner s t htwin).label hdone
  · have hnormal : w.Reaches m (n + 1) bounds (a + 1) (.ok .normal s) t :=
      ⟨t, htwin, Leads.refl _ _ _⟩
    exact (hnormal.goto hskip hdone).label hdone

/-- A branch with an alternative. -/
lemma simulates_ifElse (hskip : w.code[a + 1]? = some (.goto otherwise))
    (hfirst : w.Simulates m (n + 1) bounds (a + 3) c first)
    (hend : w.code[c]? = some (.goto done)) (hotherwise : w.code[c + 1]? = some (.label otherwise))
    (hsecond : w.Simulates m (n + 1) bounds (c + 2) d second)
    (hdone : w.code[d]? = some (.label done)) :
    w.Simulates m (n + 1) bounds a (d + 1) (do if ← test then first else second) := by
  refine simulates_branch hjump hinner htest (fun s t htwin => ?_) fun s t htwin => ?_
  · exact ((hfirst.label hinner s t htwin).goto hend hdone).label hdone
  · have hskipped := (leadsOn_goto (m := m) hskip (w.placed hotherwise) htwin).leads
    exact ((hsecond.label hotherwise s _ htwin.moveTo).of_leads hskipped).label hdone

end Branches

/-! ### Rounds -/

section Rounds

variable {round : Exec Flow} {start onTest onBreak : Label}
  (hstart : w.code[a + 1]? = some (.label start))
  (hround : w.Simulates m (n + 1) bounds (a + 2) c round)
  (honTest : w.code[c]? = some (.label onTest))
  (hjump : w.code[c + 1]? = some (.gotoIf condition start))
  (htest : w.Tests m n bounds (c + 1) test condition start)
include hstart hround honTest hjump htest

/-- **The rounds of a loop.** From the test on, a run with so much fuel does not do more rounds than
that. -/
theorem reaches_rounds : ∀ j, j ≤ n → ∀ s t, w.Twin bounds c s t →
    w.Reaches m j bounds (c + 2) (rounds test round j s) t := by
  intro j
  induction j with
  | zero =>
    intro _ s t _ k hk
    obtain rfl : k = 0 := Nat.le_zero.mp hk
    exact unsettled_runCode_zero m w.code t
  | succ j ih =>
    intro hj s t htwin
    have hj' : j ≤ n := Nat.le_of_succ_le hj
    have hpassed : w.Twin bounds (c + 1) s (t.moveTo (c + 1)) := htwin.moveTo
    refine Reaches.of_leads (leadsOn_label honTest htwin).leads ?_
    refine reaches_step hjump hpassed (htest _ (w.placed hstart) s _ hpassed) hj' ?_
    rintro taken s₁ _ t₁ ⟨rfl, htwin₁⟩
    cases taken with
    | true =>
      have hreaches := hround.label hstart s₁ _ htwin₁.moveTo
      exact (hreaches.of_le (Nat.le_succ_of_le hj')).andThen (List.Subset.refl _) (ih hj')
    | false => exact ⟨_, htwin₁.moveTo, Leads.refl _ _ _⟩

lemma simulates_rounds (hgoto : w.code[a]? = some (.goto onTest))
    (honBreak : w.code[c + 2]? = some (.label onBreak)) :
    w.Simulates m (n + 1) bounds a (c + 3) (catching onBreak (rounds test round n)) := by
  intro s t htwin
  have hreaches := reaches_rounds hstart hround honTest hjump htest n (Nat.le_refl n) s (t.moveTo c)
    htwin.moveTo
  have hwhole := hreaches.of_leadsOn (leadsOn_goto hgoto (w.placed honTest) htwin)
  exact (hwhole.catching (w.placed honBreak)).label honBreak

end Rounds

/-! ### Counting loops -/

lemma Reaches.deleteBound {bound : Var} (goal : Value) {limit p : Nat}
    {r : Exec.Result Flow} (hbound : w.hidden ≤ bound.id.index)
    (hnew : ∀ entry ∈ bounds, entry.1 ≠ bound.id)
    (hdelete : w.code[p]? = some (.delete bound))
    (h : w.Reaches m limit ((bound.id, goal) :: bounds) p r t) :
    w.Reaches m limit bounds (p + 1) r t := by
  refine h.silent (List.subset_cons_self _ _) fun s₁ t₁ htwin => ?_
  have herased : w.Twin bounds p s₁
      (t₁.onStack (·.modifyTop fun f => { f with locals := f.locals.erase bound.id })) := by
    refine htwin.modify_right fun f f' hf =>
      ⟨hf.file, hf.result, hf.going, hf.position, hf.labels, ?_, ?_⟩
    · show f.locals.below w.hidden = (f'.locals.erase bound.id).below w.hidden
      rw [Store.below_erase_of_le _ hbound, hf.locals]
    · intro entry hentry
      exact (Store.get?_erase_of_ne _ (hnew entry hentry).symm).trans
        (hf.held entry (List.mem_cons_of_mem _ hentry))
  obtain ⟨f, f', -, ht, hf⟩ := htwin.frames
  obtain rfl := hf.position
  have hexecute : ∀ k, 0 ≤ k → execute m (call m k) (.delete bound) t₁ = .ok none
      (t₁.onStack (·.modifyTop fun f => { f with locals := f.locals.erase bound.id })) :=
    fun _ _ => rfl
  exact ⟨_, herased.moveTo, (leadsOn_step ht hf.going hdelete hexecute).leads⟩

section Counting

variable {program : Code.Program} {bound iterator : Var} {lower upper : Code.Expr} {own : List Var}
  {body : Exec Flow} {labels : Code.LoopLabels} {onTest start : Label}
  (hlocal : bound.isGlobal = false) (hiterator : iterator.id.index < w.hidden)
include hlocal hiterator

lemma simulates_round {goal : Value}
    (hbounds : w.Hides ((bound.id, goal) :: bounds))
    (hown : ∀ v ∈ own, v.id.index < w.hidden)
    (hbody : w.Simulates m (n + 1) ((bound.id, goal) :: bounds) a b body)
    (hcode : w.CodeAt b [.label labels.onContinue, .approach iterator bound])
    (hdeletions : w.CodeAt (b + 2) (own.reverse.map Code.Stmt.delete)) :
    w.Simulates m (n + 1) ((bound.id, goal) :: bounds) a (b + 2 + own.length)
      (scope own (andThen (catching labels.onContinue body) do
        advance iterator goal
        return .normal)) := by
  simp only [codeAt_cons, codeAt_nil, and_true] at hcode
  obtain ⟨honContinue, happroach⟩ := hcode
  have hstep : w.Simulates m (n + 1) ((bound.id, goal) :: bounds) (b + 1) (b + 2)
      (do advance iterator goal; return .normal) := by
    intro s t htwin
    have hadvance := mirror_advance (n := n) hlocal (.inr hiterator) hbounds htwin m
    refine reaches_step happroach htwin hadvance (Nat.le_refl n) ?_
    rintro _ s₁ _ t₁ ⟨rfl, htwin₁⟩
    exact ⟨_, htwin₁.moveTo, Leads.refl _ _ _⟩
  intro s t htwin
  have hreaches := ((hbody s t htwin).catching (w.placed honContinue)).label honContinue
  exact (hreaches.andThen (List.Subset.refl _) hstep).scope hbounds hown hdeletions

/-- **A counting loop,** whose bound is a hidden variable in flat code. -/
theorem simulates_counting (hcalls : Corresponds m (m.withProgram program) n)
    (hbounds : w.Hides bounds)
    (hbound : w.hidden ≤ bound.id.index) (hnew : ∀ entry ∈ bounds, entry.1 ≠ bound.id)
    (hlower : ∀ a ∈ lower.accesses, w.SharesAccess a)
    (hupper : ∀ a ∈ upper.accesses, w.SharesAccess a)
    (hround : ∀ goal, w.Simulates (m.withProgram program) (n + 1) ((bound.id, goal) :: bounds)
      (a + 4) c (scope own (andThen (catching labels.onContinue body) do
        advance iterator goal
        return .normal)))
    (hfirst : w.CodeAt a [.declare bound (some upper), .declare iterator (some lower),
      .goto onTest, .label start])
    (hlast : w.CodeAt c [.label onTest, .gotoIf (.binary (.name iterator lower.span) .ne
      (.name bound upper.span) .bool (lower.span.merge upper.span)) start, .label labels.onBreak,
      .delete iterator, .delete bound]) :
    w.Simulates (m.withProgram program) (n + 1) bounds a (c + 5)
      (counting m (callTree m n) n iterator lower upper own body labels) := by
  simp only [codeAt_cons, codeAt_nil, and_true] at hfirst hlast
  obtain ⟨hdeclare, hinitial, hgoto, hstart⟩ := hfirst
  obtain ⟨honTest, hjump, honBreak, hdelete, hdeleteBound⟩ := hlast
  intro s t htwin
  refine reaches_step hdeclare htwin (mirror_bound hcalls hbounds hlocal hbound hnew hupper htwin)
    (Nat.le_refl n) ?_
  rintro goal s₁ _ t₁ ⟨rfl, htwin₁⟩
  -- from here on the bound is hidden, and direct execution holds its value
  have hbounds' : w.Hides ((bound.id, goal) :: bounds) :=
    List.forall_mem_cons.mpr ⟨hbound, hbounds⟩
  have htests : w.Tests (m.withProgram program) n ((bound.id, goal) :: bounds) (c + 1)
      (differs m iterator goal lower.span upper.span) _ start :=
    fun q hq s t htwin => mirror_differs hlocal (.inr hiterator) hbounds' hq htwin
  have hrounds := simulates_rounds hstart (hround goal) honTest hjump htests hgoto honBreak
  have hscope : w.CodeAt (c + 3) ([iterator].reverse.map Code.Stmt.delete) := by
    simpa using hdelete
  have hinitializer : ∀ e ∈ some lower, ∀ a ∈ e.accesses, w.SharesAccess a := by
    rintro _ ⟨⟩
    exact hlower
  have hmoved : w.Twin ((bound.id, goal) :: bounds) (a + 1) s₁ (t₁.moveTo (a + 1)) :=
    htwin₁.moveTo
  refine (Reaches.deleteBound goal hbound hnew hdeleteBound ?_).of_le (Nat.le_succ n)
  refine reaches_step hinitial hmoved
    (mirror_declare hcalls hbounds' (.inr hiterator) hinitializer hmoved) (Nat.le_refl n) ?_
  rintro _ s₂ _ t₂ ⟨rfl, htwin₂⟩
  have hscoped := (hrounds s₂ _ htwin₂.moveTo).scope hbounds' (by simpa using hiterator) hscope
  exact hscoped.of_le (Nat.le_succ n)

end Counting

end Pairing

end Parcel
