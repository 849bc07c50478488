import Parcel.Proofs.Machine.Path
import Parcel.Proofs.Number.Word

/-!
# Runs of counting loops

The code of a counting loop keeps its upper bound in a hidden variable and moves its iterator toward
it. Where nothing else changes the two variables, a run that enters the code leaves it at its end,
and between its rounds the iterator goes through the numbers from one bound to the other.
-/

namespace Parcel

open Code List

/-! ### Numbers -/

/-- The numbers from one bound toward the other, which is not one of them. -/
def approaching (a b : Int) : List Int :=
  (List.range (b - a).natAbs).map fun k : Nat => a + k * (b - a).sign

@[simp] lemma length_approaching (a b : Int) : (approaching a b).length = (b - a).natAbs := by
  rw [approaching, length_map, length_range]

@[simp] lemma approaching_self (a : Int) : approaching a a = [] := by
  rw [approaching, Int.sub_self]
  rfl

lemma approaching_of_ne {a b : Int} (h : a ≠ b) :
    approaching a b = a :: approaching (stepToward a b) b := by
  have hlength : (b - a).natAbs = (b - stepToward a b).natAbs + 1 := by
    unfold stepToward
    split_ifs <;> omega
  have hstep : stepToward a b = a + (b - a).sign := by
    unfold stepToward
    rcases Int.lt_or_gt_of_ne h with hlt | hgt
    · rw [if_pos hlt, Int.sign_eq_one_of_pos (by omega)]
    · rw [if_neg (by omega), if_pos hgt, Int.sign_eq_neg_one_of_neg (by omega)]
      rfl
  rw [approaching, hlength, range_succ_eq_map, map_cons, map_map, approaching]
  refine cons_eq_cons.mpr ⟨by simp, map_congr_left fun k hk => ?_⟩
  -- unless the bound is reached, the direction stays
  have hsign : (b - stepToward a b).sign = (b - a).sign := by
    rw [mem_range] at hk
    rcases Int.lt_or_gt_of_ne h with hlt | hgt
    · have hone : (b - a).sign = 1 := Int.sign_eq_one_of_pos (by omega)
      rw [hone] at hstep ⊢
      exact Int.sign_eq_one_of_pos (by omega)
    · have hone : (b - a).sign = -1 := Int.sign_eq_neg_one_of_neg (by omega)
      rw [hone] at hstep ⊢
      exact Int.sign_eq_neg_one_of_neg (by omega)
  rw [Function.comp_apply, hsign, hstep, Nat.succ_eq_add_one, Int.natCast_add, Int.add_mul]
  omega

lemma stepToward_between (a b : Int) :
    min a b ≤ stepToward a b ∧ stepToward a b ≤ max a b := by
  unfold stepToward
  split_ifs <;> omega

/-- The word that is one step closer to another one. -/
def stepped (i b : Word) : Word :=
  Word.wrap .int (stepToward i.val b.val)

/-- **No step overflows:** it stays between two words of type `int`. -/
theorem stepToward_holds {i b : Word} (hi : i.width = .int) (hb : b.width = .int) :
    (Word.wrap .long (stepToward i.val b.val)).val = stepToward i.val b.val ∧
      (stepped i b).val = stepToward i.val b.val := by
  obtain ⟨hmin, hmax⟩ := stepToward_between i.val b.val
  have hi' := i.least_le_val
  have hb' := b.least_le_val
  rw [hi] at hi'
  rw [hb] at hb'
  simp only [Width.least, Width.limit, Width.modulus] at hi' hb'
  constructor
  all_goals
    refine Word.val_wrap_of_le ?_ ?_
    all_goals
      simp only [Width.least, Width.limit, Width.modulus]
      omega

/-! ### Loops and their code -/

/-- A loop that counts: its iterator goes from the lower bound toward the upper one. -/
structure Counted where
  iterator : Var
  lower : Expr
  upper : Expr
  body : Stmt
  labels : LoopLabels

/-- The loop that a statement is, if it counts. A loop that says only how often its body is executed
counts from zero. -/
def Counted.ofStmt? : Stmt → Option Counted
  | .fromTo iterator lower upper body labels => some ⟨iterator, lower, upper, body, labels⟩
  | .loop iterator count body labels => some ⟨iterator, .int 0 count.span, count, body, labels⟩
  | _ => none

/-- Where the code of a loop stands, with the counters with which the loop was lowered. -/
structure LoopSite where
  loop : Counted
  /-- The position of the first statement. -/
  entry : Nat
  ids : Ids

namespace LoopSite

section Positions

variable (site : LoopSite)

/-- The hidden variable that holds the upper bound. -/
def bound : Var :=
  site.ids.localVar boundName .int

/-- The lowered body. -/
def body : Stmt :=
  (site.loop.body.lower.run (site.ids.skip 1 2)).1

/-- The code of the loop. -/
def code : List Stmt :=
  (countingCode site.bound (site.ids.labelAt 0) (site.ids.labelAt 1) site.loop.iterator
    site.loop.lower site.loop.upper site.body site.loop.labels).flat

/-- The position of the label in front of the body, where every round starts. -/
def start : Nat :=
  site.entry + 3

/-- The position of the label after the body, where `continue` leads. -/
def next : Nat :=
  site.start + 1 + site.body.flat.length

/-- The position where the iterator is compared with the bound. -/
def test : Nat :=
  site.next + 2 + site.loop.body.own.length

/-- The position after the loop. -/
def exit : Nat :=
  site.test + 5

lemma start_lt_next : site.start < site.next :=
  Nat.lt_of_lt_of_le (Nat.lt_succ_self _) (Nat.le_add_right _ _)

lemma next_lt_test : site.next + 1 < site.test :=
  Nat.lt_of_lt_of_le (Nat.lt_succ_self _) (Nat.le_add_right _ _)

lemma start_lt_test : site.start < site.test :=
  Nat.lt_trans site.start_lt_next (Nat.lt_of_succ_lt site.next_lt_test)

/-- The comparison of the iterator with the bound. -/
def condition : Expr :=
  .binary (.name site.loop.iterator site.loop.lower.span) .ne
    (.name site.bound site.loop.upper.span) .bool
    (site.loop.lower.span.merge site.loop.upper.span)

end Positions

/-- The statements of the code of a loop, one by one. -/
structure Lies (site : LoopSite) (code : Array Stmt) : Prop where
  declareBound : code[site.entry]? = some (.declare site.bound (some site.loop.upper))
  declareIterator :
    code[site.entry + 1]? = some (.declare site.loop.iterator (some site.loop.lower))
  toTest : code[site.entry + 2]? = some (.goto (site.ids.labelAt 0))
  start : code[site.start]? = some (.label (site.ids.labelAt 1))
  body : StandsAt code (site.start + 1) site.body.flat
  next : code[site.next]? = some (.label site.loop.labels.onContinue)
  approach : code[site.next + 1]? = some (.approach site.loop.iterator site.bound)
  deletions : StandsAt code (site.next + 2) (deletions site.loop.body.own)
  test : code[site.test]? = some (.label (site.ids.labelAt 0))
  branch : code[site.test + 1]? = some (.gotoIf site.condition (site.ids.labelAt 1))
  done : code[site.test + 2]? = some (.label site.loop.labels.onBreak)
  deleteIterator : code[site.test + 3]? = some (.delete site.loop.iterator)
  deleteBound : code[site.test + 4]? = some (.delete site.bound)

lemma lies_of_standsAt {site : LoopSite} {code : Array Stmt}
    (h : StandsAt code site.entry site.code) (hkeeps : site.loop.body.Keeps) : site.Lies code := by
  have hlow : site.body.Keeps := hkeeps.lower _
  have hown : site.body.own = site.loop.body.own := own_lower _ _
  rw [LoopSite.code, flat_countingCode hlow, hown] at h
  simp only [standsAt_append, standsAt_cons, standsAt_nil, and_true, length_append,
    length_cons, length_nil, length_deletions, Nat.zero_add, ← Nat.add_assoc] at h
  obtain ⟨⟨⟨⟨⟨h₀, h₁, h₂, h₃⟩, hbody⟩, h₄, h₅⟩, hdeletions⟩, h₆, h₇, h₈, h₉, h₁₀⟩ := h
  exact ⟨h₀, h₁, h₂, h₃, hbody, h₄, h₅, hdeletions, h₆, h₇, h₈, h₉, h₁₀⟩

/-- **Every loop that counts has its code** in the code of the body that it is in. -/
theorem exists_standsAt {stmt part : Stmt} {loops : Option LoopLabels} {loop : Counted}
    (h : Structured loops stmt) (hpart : part ∈ stmt.parts) (hloop : Counted.ofStmt? part = some loop)
    (ids : Ids) : ∃ site : LoopSite, site.loop = loop ∧ ids.Reach site.ids ∧
      StandsAt (flatten (stmt.lower.run ids).1).toArray site.entry site.code := by
  obtain ⟨ids', loops', hreach, -, hpiece⟩ := infix_lower stmt h hpart ids
  obtain ⟨p, hstands⟩ := exists_standsAt_of_infix hpiece
  refine ⟨⟨loop, p, ids'⟩, rfl, hreach, ?_⟩
  have hcode : (part.lower.run ids').1.flat = LoopSite.code ⟨loop, p, ids'⟩ := by
    cases part with
    | fromTo | loop =>
      obtain rfl := Option.some.inj hloop
      rfl
    | _ => cases hloop
  rwa [flatten_eq_flat, ← hcode]

/-- The code of a loop stands where nothing else changes its iterator and its bound. -/
structure Sound (site : LoopSite) (code : Array Stmt) : Prop where
  lies : site.Lies code
  placed : (Body.lowered code).placed.Nodup
  type : site.loop.iterator.type = .int
  isLocal : site.loop.iterator.isGlobal = false
  ne : site.bound.id ≠ site.loop.iterator.id
  lower : ¬ Stores site.loop.lower.accesses site.bound.id
  body : ∀ piece ∈ site.body.flat,
    ¬ piece.Changes site.loop.iterator.id ∧ ¬ piece.Changes site.bound.id
  own : ∀ v ∈ site.loop.body.own, v.id ≠ site.loop.iterator.id ∧ v.id ≠ site.bound.id

/-- A loop whose variables are older than the bound, and whose iterator is its own and not assigned,
is sound. -/
lemma sound_of_scoped {site : LoopSite} {code : Array Stmt} {visible : List Var}
    {loops : Option LoopLabels} (hstands : StandsAt code site.entry site.code)
    (hplaced : (Body.lowered code).placed.Nodup) (htype : site.loop.iterator.type = .int)
    (hlocal : site.loop.iterator.isGlobal = false) (hstructured : Structured loops site.loop.body)
    (hlower : site.loop.lower.Within visible)
    (hscoped : site.loop.body.Scoped (site.loop.iterator :: visible))
    (hvisible : ∀ v ∈ site.loop.iterator :: visible, v.isGlobal = false →
      v.id.index < site.ids.nextVar)
    (hvars : ∀ v ∈ site.loop.body.vars,
      v.id ≠ site.loop.iterator.id ∧ v.id.index < site.ids.nextVar)
    (hassigned : ¬ Stores site.loop.body.accesses site.loop.iterator.id) : site.Sound code := by
  have hfresh {id : VarId} (hid : id.index < site.ids.nextVar) : id ≠ site.bound.id := by
    rintro rfl
    exact Nat.lt_irrefl _ hid
  have hiterator : site.loop.iterator.id.index < site.ids.nextVar :=
    hvisible _ mem_cons_self hlocal
  refine ⟨lies_of_standsAt hstands hstructured.keeps, hplaced, htype, hlocal, (hfresh hiterator).symm,
    ?lower, ?body, fun v hv => ?own⟩
  case own =>
    obtain ⟨hne, hindex⟩ := hvars v (own_subset_vars _ hv)
    exact ⟨hne, hfresh hindex⟩
  case lower =>
    rintro ⟨v, hid, hv, hwrite⟩
    exact hfresh (hvisible v (mem_cons_of_mem _ (hlower _ hwrite v rfl)) hv) hid
  case body =>
    -- what the body changes is assigned in it, introduced in it or younger than the bound
    intro piece hpiece
    constructor
    · intro hchanges
      rcases changes_lower hstructured hpiece hchanges with hstores | hmem | hindex
      · exact hassigned hstores
      · obtain ⟨v, hv, hid⟩ := mem_map.mp hmem
        exact (hvars v hv).1 hid
      · exact absurd hiterator (Nat.not_lt.mpr (Nat.le_of_succ_le hindex))
    · intro hchanges
      rcases changes_lower hstructured hpiece hchanges with ⟨v, hid, hv, hwrite⟩ | hmem | hindex
      · rcases var_mem_of_scoped hscoped _ hwrite v rfl with hmem | hmem
        · exact hfresh (hvisible v hmem hv) hid
        · exact hfresh (hvars v hmem).2 hid
      · obtain ⟨v, hv, hid⟩ := mem_map.mp hmem
        exact hfresh (hvars v hv).2 hid
      · exact Nat.not_succ_le_self _ hindex

/-! ### Between the rounds -/

/-- The frame of a loop that is at a position, with these values of its iterator and its bound. -/
structure Holds (site : LoopSite) (code : Array Stmt) (i b : Word) (p : Nat) (frame : Frame) :
    Prop where
  runs : Runs code frame
  going : frame.returned = false
  position : frame.position = p
  iterator : frame.locals.get? site.loop.iterator.id = some (.integer i)
  bound : frame.locals.get? site.bound.id = some (.integer b)

/-- The run of a loop is at a position, with these values of its iterator and its bound. -/
def Counts (site : LoopSite) (code : Array Stmt) (i b : Word) (p : Nat) (s : State) : Prop :=
  ∃ frame tail, s.stack.frames = frame :: tail ∧ site.Holds code i b p frame

end LoopSite

/-- The number of a value of type `int`. -/
def Value.int? : Value → Option Int
  | .integer w => if w.width = .int then some w.val else none
  | _ => none

/-- The number that a variable of type `int` holds. -/
def State.int? (s : State) (v : Var) : Option Int :=
  (s.value? v).bind Value.int?

namespace LoopSite

variable {t : State} {trace : List State} {frame : Frame} {tail : List Frame}

/-- The bounds have these values: first the upper one is evaluated, and the lower one then, when the
hidden variable holds the upper one. -/
def Bounded (site : LoopSite) (m : Machine) (s : State) (a b : Word) : Prop :=
  ∃ s₁ s₂, Evaluates m site.loop.upper s (.integer b) s₁ ∧
    Evaluates m site.loop.lower ((s₁.assign site.bound (.integer b)).moveTo (site.entry + 1))
      (.integer a) s₂

/-- Each execution of the body that the loop comes to ends normally or by `continue`, which both
lead to the place after the body. -/
def BodyEnds (site : LoopSite) (m : Machine) (code : Array Stmt) (s : State) : Prop :=
  ∀ trace t, Path m code s trace t → Inside site.entry site.exit trace →
    t.cursor? = some (site.start + 1) → ∃ inner u, Path m code t inner u ∧
      Inside (site.start + 1) site.next inner ∧ u.cursor? = some site.next

/-- The run leaves the code of the loop at its end. Its rounds start with the numbers from one bound
toward the other, and the tests between them find the same numbers and at last the upper bound.
Afterwards the iterator and the bound are gone. -/
structure Iterates (site : LoopSite) (m : Machine) (code : Array Stmt) (a b : Int) (s : State)
    (trace : List State) (t : State) : Prop where
  path : Path m code s trace t
  ends : t.cursor? = some site.exit
  rounds : (visitsAt site.start trace).map (·.int? site.loop.iterator) = (approaching a b).map some
  tests : (visitsAt site.test trace).map (·.int? site.loop.iterator) =
    (approaching a b ++ [b]).map some
  gone : t.value? site.loop.iterator = none ∧ t.value? site.bound = none

/-- **The loop runs its range.** The statements of the loop stand in the code, and a run with fuel
goes on as from the end of the loop. It starts with the two statements that evaluate the upper bound
and then the lower one, does not come back to them, and executes the body as often as the bounds are
apart. -/
structure RunsRange (site : LoopSite) (m : Machine) (code : Array Stmt) (a b : Int) (s : State)
    (trace : List State) (t : State) : Prop extends site.Iterates m code a b s trace t where
  lies : site.Lies code
  leads : Leads m code s t
  count : (visitsAt site.start trace).length = (b - a).natAbs
  bounds : ∃ s₁ rest, trace = s :: s₁ :: rest ∧ s.cursor? = some site.entry ∧
    s₁.cursor? = some (site.entry + 1) ∧ Inside (site.entry + 2) site.exit rest

variable {site : LoopSite} {m : Machine} {code : Array Stmt} {i b : Word} {p : Nat} {s : State}

lemma Iterates.count {a b : Int} (h : site.Iterates m code a b s trace t) :
    (visitsAt site.start trace).length = (b - a).natAbs := by
  have hlength := congrArg List.length h.rounds
  rwa [length_map, length_map, length_approaching] at hlength

/-- Steps in front of the rounds do not matter. -/
lemma Iterates.after {a b : Int} {u : State} {head : List State}
    (h : site.Iterates m code a b u trace t) (hhead : Path m code s head u)
    (hinside : Inside site.entry site.start head) :
    site.Iterates m code a b s (head ++ trace) t := by
  refine ⟨hhead.append h.path, h.ends, ?_, ?_, h.gone⟩
  · rw [visitsAt_append, hinside.visitsAt_eq_nil (.inr (Nat.le_refl _)), nil_append, h.rounds]
  · rw [visitsAt_append, hinside.visitsAt_eq_nil (.inr (Nat.le_of_lt site.start_lt_test)),
      nil_append, h.tests]

lemma BodyEnds.path (h : site.BodyEnds m code s) (hpath : Path m code s trace t)
    (hinside : Inside site.entry site.exit trace) : site.BodyEnds m code t :=
  fun _ u hrest hinside' => h _ u (hpath.append hrest) (hinside.append hinside')

lemma bodyEnds_of_expr {e : Expr} (hlies : site.Lies code) (hbody : site.loop.body = .expr e)
    (heval : ∀ t, t.cursor? = some (site.start + 1) → ∃ value u, Evaluates m e t value u)
    (s : State) : site.BodyEnds m code s := by
  intro trace t _ _ hcursor
  obtain ⟨value, u, hvalue⟩ := heval t hcursor
  obtain ⟨frame, tail, hframes, hgoing, -⟩ := exists_of_cursor? hcursor
  obtain ⟨locals, hframes'⟩ := hvalue.frames hframes
  have hlow : site.body = .expr e := by
    rw [LoopSite.body, hbody]
    rfl
  have hnext : site.next = site.start + 2 := by
    rw [LoopSite.next, hlow]
    rfl
  have hstmt : code[site.start + 1]? = some (.expr e) := by
    have hstands := hlies.body
    rw [hlow] at hstands
    exact hstands 0 Nat.zero_lt_one
  refine ⟨[t], _, (step_expr hcursor hstmt hvalue).path, ?_, ?_⟩
  · exact inside_singleton hcursor (Nat.le_refl _) (by omega)
  · rw [hnext]
    exact cursor?_of_frames (frames_modifyTop hframes' _) hgoing

lemma bounded_of_names {low high : Var} {span₁ span₂ : Span} {a : Word}
    (hlower : site.loop.lower = .name low span₁) (hupper : site.loop.upper = .name high span₂)
    (hframes : s.stack.frames = frame :: tail) (hlow_local : low.isGlobal = false)
    (hhigh_local : high.isGlobal = false) (hlow : frame.locals.get? low.id = some (.integer a))
    (hhigh : frame.locals.get? high.id = some (.integer b)) (hne : site.bound.id ≠ low.id) :
    site.Bounded m s a b := by
  have hname {t : State} {v : Var} {value : Value} (span : Span) (h : t.value? v = some value) :
      Evaluates m (.name v span) t value t := ⟨0, fun _ _ => placing_ok (loadVar_some h)⟩
  rw [Bounded, hlower, hupper]
  refine ⟨s, _, hname span₂ ((value?_of_frames hframes hhigh_local).trans hhigh), hname span₁ ?_⟩
  have hlocal : site.bound.isGlobal = false := rfl
  rw [State.assign, hlocal, if_neg Bool.false_ne_true]
  refine (value?_of_frames (frames_modifyTop (frames_modifyTop hframes _) _) hlow_local).trans ?_
  exact ((Store.get?_set ..).trans (if_neg hne)).trans hlow

lemma Counts.cursor (h : site.Counts code i b p s) : s.cursor? = some p := by
  obtain ⟨frame, tail, hframes, hholds⟩ := h
  rw [cursor?_of_frames hframes hholds.going, hholds.position]

lemma Counts.modify (h : site.Counts code i b p s) {i' : Word} {q : Nat} {g : Frame → Frame}
    (hg : ∀ frame, site.Holds code i b p frame → site.Holds code i' b q (g frame)) :
    site.Counts code i' b q (s.onStack (·.modifyTop g)) := by
  obtain ⟨frame, tail, hframes, hholds⟩ := h
  exact ⟨g frame, tail, frames_modifyTop hframes g, hg frame hholds⟩

lemma Counts.moveTo (h : site.Counts code i b p s) (q : Nat) :
    site.Counts code i b q (s.moveTo q) :=
  h.modify fun _ hf => ⟨⟨hf.runs.labels, hf.runs.distinct⟩, hf.going, rfl, hf.iterator, hf.bound⟩

lemma Counts.label (h : site.Counts code i b p s) {label : Label}
    (hstmt : code[p]? = some (.label label)) : Step m code s (s.moveTo (p + 1)) :=
  step_label h.cursor hstmt

lemma Counts.deletions (vars : List Var)
    (hvars : ∀ v ∈ vars, v.id ≠ site.loop.iterator.id ∧ v.id ≠ site.bound.id)
    (h : site.Counts code i b p s) (hcode : StandsAt code p (vars.map .delete)) :
    ∃ trace t, Path m code s trace t ∧ Inside p (p + vars.length) trace ∧
      site.Counts code i b (p + vars.length) t := by
  induction vars generalizing p s with
  | nil => exact ⟨[], s, .refl s, forall_mem_nil _, h⟩
  | cons v vars ih =>
    obtain ⟨⟨hiterator, hbound⟩, hvars⟩ := forall_mem_cons.mp hvars
    rw [map_cons, standsAt_cons] at hcode
    have hstep := step_delete (m := m) h.cursor hcode.1
    have hnext := (h.modify fun frame hf => (⟨⟨hf.runs.labels, hf.runs.distinct.erase v.id⟩, hf.going,
      hf.position, (Store.get?_erase_of_ne _ hiterator).trans hf.iterator,
      (Store.get?_erase_of_ne _ hbound).trans hf.bound⟩ : site.Holds code i b p
        { frame with locals := frame.locals.erase v.id })).moveTo (p + 1)
    obtain ⟨trace, t, hpath, hinside, hcounts⟩ := ih hvars hnext hcode.2
    have hlength : p + 1 + vars.length = p + (v :: vars).length := by
      rw [length_cons, Nat.add_assoc, Nat.add_comm 1]
    rw [hlength] at hinside hcounts
    refine ⟨s :: trace, t, .step hstep hpath, forall_mem_cons.mpr ⟨?_, ?_⟩, hcounts⟩
    · exact ⟨p, h.cursor, Nat.le_refl p, by simp⟩
    · exact hinside.mono (Nat.le_succ p) (Nat.le_refl _)

namespace Sound

variable (hsound : site.Sound code)
include hsound

lemma value_iterator (h : site.Counts code i b p s) :
    s.value? site.loop.iterator = some (.integer i) := by
  obtain ⟨frame, tail, hframes, hholds⟩ := h
  rw [value?_of_frames hframes hsound.isLocal, hholds.iterator]

omit hsound in
lemma value_bound (h : site.Counts code i b p s) : s.value? site.bound = some (.integer b) := by
  obtain ⟨frame, tail, hframes, hholds⟩ := h
  exact (value?_of_frames hframes rfl).trans hholds.bound

lemma int_iterator (h : site.Counts code i b p s) (hi : i.width = .int) :
    s.int? site.loop.iterator = some i.val := by
  rw [State.int?, hsound.value_iterator h, Option.bind_some, Value.int?, if_pos hi]

/-- The comparison of the iterator with the bound tells whether the bound is reached. -/
lemma evaluates_condition (h : site.Counts code i b p s) (hwidth : i.width = b.width) :
    Evaluates m site.condition s (.bool !decide (i.val = b.val)) s := by
  refine ⟨0, fun k _ => ?_⟩
  have hiterator : placing site.loop.lower.span (loadVar site.loop.iterator) s =
      .ok (.integer i) s := placing_ok (loadVar_some (hsound.value_iterator h))
  have hbound : placing site.loop.upper.span (loadVar site.bound) s = .ok (.integer b) s :=
    placing_ok (loadVar_some (value_bound h))
  have hbinary : Value.binary .ne (.integer i) (.integer b) =
      .ok (.bool !decide (i.val = b.val)) := by
    rw [Value.binary, if_pos hwidth]
    rfl
  refine placing_ok ((exec_bind_ok hiterator _).trans ((exec_bind_ok hbound _).trans ?_))
  rw [hbinary]
  rfl

/-- The test leads to the next round unless the bound is reached. -/
lemma step_branch (h : site.Counts code i b (site.test + 1) s) (hwidth : i.width = b.width) :
    Step m code s (s.moveTo (if i.val = b.val then site.test + 2 else site.start)) := by
  obtain ⟨frame, tail, hframes, hholds⟩ := id h
  have hstep := step_gotoIf hsound.placed hframes hholds.runs hsound.lies.start h.cursor
    hsound.lies.branch (hsound.evaluates_condition (m := m) h hwidth)
  by_cases heq : i.val = b.val
  · rw [decide_eq_true heq] at hstep
    rwa [if_pos heq]
  · rw [decide_eq_false heq] at hstep
    rwa [if_neg heq]

/-- Moving the iterator toward the bound is exact. -/
lemma step_approach (h : site.Counts code i b (site.next + 1) s) (hi : i.width = .int)
    (hb : b.width = .int) : ∃ t, Step m code s t ∧
      site.Counts code (stepped i b) b (site.next + 2) t := by
  have hbound := value_bound h
  have hiterator := hsound.value_iterator h
  have hcurrent : (Exec.ofExcept (Value.integer i).asInteger : Exec Int) s = .ok i.val s := rfl
  have hgoal : (Exec.ofExcept (Value.integer b).asInteger : Exec Int) s = .ok b.val s := rfl
  have hconvert : (Exec.ofExcept (s.heap.convert site.loop.iterator.type
      (.integer (Word.wrap .long (stepToward i.val b.val)))) : Exec Value) s =
        .ok (.integer (stepped i b)) s := by
    have hlong := (stepToward_holds hi hb).1
    rw [hsound.type]
    show EStateM.Result.ok (Value.integer (Word.wrap .int (Word.wrap .long _).val)) s = _
    rw [hlong]
    rfl
  have hholds : s.holds site.loop.iterator = true := by
    obtain ⟨frame, tail, hframes, -⟩ := h
    exact holds_of_frames hframes _
  have hexecute (k : Nat) : execute m (call m k) (.approach site.loop.iterator site.bound) s =
      .ok none (s.assign site.loop.iterator (.integer (stepped i b))) :=
    (exec_bind_ok (loadVar_some hiterator) _).trans <| (exec_bind_ok hcurrent _).trans <|
      (exec_bind_ok (loadVar_some hbound) _).trans <| (exec_bind_ok hgoal _).trans <|
      (exec_bind_ok (get_run s) _).trans <| (exec_bind_ok hconvert _).trans
      (exec_bind_ok (storeVar_holds hholds _) _)
  refine ⟨_, @Step.intro m code s _ 0 _ none _ h.cursor hsound.lies.approach
    fun k _ => hexecute k, ?_⟩
  have hset : site.Counts code (stepped i b) b (site.next + 1)
      (s.assign site.loop.iterator (.integer (stepped i b))) := by
    rw [State.assign, hsound.isLocal, if_neg Bool.false_ne_true]
    refine h.modify fun frame hf => ⟨⟨hf.runs.labels, hf.runs.distinct.set _ _⟩, hf.going,
      hf.position, ?_, ?_⟩
    · rw [Store.get?_set, if_pos rfl]
    · have hne : site.loop.iterator.id ≠ site.bound.id := fun heq => hsound.ne heq.symm
      rw [Store.get?_set, if_neg hne]
      exact hf.bound
  exact hset.moveTo _

/-- The body leaves the iterator and the bound, whichever way it takes. -/
lemma counts_next {inner : List State} (h : site.Counts code i b (site.start + 1) s)
    (hpath : Path m code s inner t) (hinside : Inside (site.start + 1) site.next inner)
    (hend : t.cursor? = some site.next) : site.Counts code i b site.next t := by
  obtain ⟨frame, tail, hframes, hholds⟩ := h
  obtain ⟨frame', hframes', hruns, hlocals⟩ := hpath.leaves hinside hframes hholds.runs
  have hpiece {q : Nat} {stmt : Stmt} (hfirst : site.start + 1 ≤ q) (hlast : q < site.next)
      (hstmt : code[q]? = some stmt) : stmt ∈ site.body.flat := by
    obtain ⟨k, rfl⟩ := Nat.exists_eq_add_of_le hfirst
    rw [hsound.lies.body k (Nat.lt_of_add_lt_add_left hlast)] at hstmt
    exact mem_of_getElem? hstmt
  obtain ⟨_, _, hframes'', hgoing, hposition⟩ := exists_of_cursor? hend
  obtain ⟨rfl, rfl⟩ := List.cons.inj (hframes'.symm.trans hframes'')
  refine ⟨frame', tail, hframes', hruns, hgoing, hposition, ?_, ?_⟩
  · refine (hlocals _ fun q stmt hfirst hlast hstmt => ?_).trans hholds.iterator
    exact (hsound.body stmt (hpiece hfirst hlast hstmt)).1
  · refine (hlocals _ fun q stmt hfirst hlast hstmt => ?_).trans hholds.bound
    exact (hsound.body stmt (hpiece hfirst hlast hstmt)).2

/-- From the end of the body the run comes to the test, with the iterator one step closer. -/
lemma path_test (h : site.Counts code i b site.next s) (hi : i.width = .int)
    (hb : b.width = .int) : ∃ trace t, Path m code s trace t ∧ Inside site.next site.test trace ∧
      site.Counts code (stepped i b) b site.test t := by
  have hnext := h.moveTo (site.next + 1)
  obtain ⟨t₁, hstep, hcounts⟩ := hsound.step_approach (m := m) hnext hi hb
  have hown : ∀ v ∈ site.loop.body.own.reverse,
      v.id ≠ site.loop.iterator.id ∧ v.id ≠ site.bound.id :=
    fun v hv => hsound.own v (mem_reverse.mp hv)
  obtain ⟨trace, t, hpath, hinside, hend⟩ :=
    hcounts.deletions (m := m) _ hown hsound.lies.deletions
  rw [length_reverse] at hinside hend
  refine ⟨s :: s.moveTo (site.next + 1) :: trace, t, ?_, ?_, hend⟩
  · exact .step (h.label hsound.lies.next) (.step hstep hpath)
  · have htest := site.next_lt_test
    refine forall_mem_cons.mpr ⟨⟨_, h.cursor, Nat.le_refl _, by omega⟩, ?_⟩
    refine forall_mem_cons.mpr ⟨⟨_, hnext.cursor, Nat.le_succ _, htest⟩, ?_⟩
    exact hinside.mono (Nat.le_add_right _ 2) (Nat.le_refl _)

/-- **One round:** where the bound is not reached, the body is executed once with the iterator as it
is, and the run comes back to the test with the iterator one step closer. -/
theorem round (h : site.Counts code i b site.test s) (hi : i.width = .int) (hb : b.width = .int)
    (hne : i.val ≠ b.val) (hends : site.BodyEnds m code s) :
    ∃ trace t, Path m code s trace t ∧ Inside site.start site.exit trace ∧
      (visitsAt site.start trace).map (·.int? site.loop.iterator) = [some i.val] ∧
      (visitsAt site.test trace).map (·.int? site.loop.iterator) = [some i.val] ∧
      site.Counts code (stepped i b) b site.test t := by
  have hstart := site.start_lt_next
  have htest := site.next_lt_test
  have hexit : site.exit = site.test + 5 := rfl
  -- the test, the branch and the label in front of the body
  have hbranch := h.moveTo (site.test + 1)
  have hlabel := hbranch.moveTo site.start
  have hbody := hlabel.moveTo (site.start + 1)
  have hstep := hsound.step_branch (m := m) hbranch (hi.trans hb.symm)
  rw [if_neg hne] at hstep
  have hhead : Path m code s [s, _, _] _ :=
    .step (h.label hsound.lies.test) (.step hstep (hlabel.label hsound.lies.start).path)
  have hhead_inside : Inside site.start site.exit [s, _, _] :=
    (inside_singleton h.cursor (by omega) (by omega)).append <|
      (inside_singleton hbranch.cursor (by omega) (by omega)).append
        (inside_singleton hlabel.cursor (Nat.le_refl _) (by omega))
  -- the body, and the way back
  obtain ⟨inner, u, hinner, hinside, hend⟩ := hends _ _ hhead
    (hhead_inside.mono (Nat.le_add_right _ 3) (Nat.le_refl _)) hbody.cursor
  obtain ⟨back, t, hback, hback_inside, hcounts⟩ :=
    hsound.path_test (m := m) (hsound.counts_next hbody hinner hinside hend) hi hb
  have hrest : Inside (site.start + 1) site.test (inner ++ back) :=
    (hinside.mono (Nat.le_refl _) (by omega)).append (hback_inside.mono hstart (Nat.le_refl _))
  refine ⟨_, t, hhead.append (hinner.append hback), ?_, ?_, ?_, hcounts⟩
  · exact hhead_inside.append (hrest.mono (Nat.le_succ _) (by omega))
  · rw [cons_append, cons_append, cons_append, nil_append,
      visitsAt_cons_of_ne h.cursor (by omega), visitsAt_cons_of_ne hbranch.cursor (by omega),
      visitsAt_cons hlabel.cursor, hrest.visitsAt_eq_nil (.inl (Nat.lt_succ_self _)),
      map_singleton, hsound.int_iterator hlabel hi]
  · rw [cons_append, cons_append, cons_append, nil_append,
      visitsAt_cons h.cursor, visitsAt_cons_of_ne hbranch.cursor (by omega),
      visitsAt_cons_of_ne hlabel.cursor (by omega), hrest.visitsAt_eq_nil (.inr (Nat.le_refl _)),
      map_singleton, hsound.int_iterator h hi]

lemma leave (h : site.Counts code i b site.test s) (hwidth : i.width = b.width)
    (heq : i.val = b.val) : ∃ rest t, Path m code s (s :: rest) t ∧
      Inside (site.test + 1) site.exit rest ∧ t.cursor? = some site.exit ∧
      t.value? site.loop.iterator = none ∧ t.value? site.bound = none := by
  have hbranch := h.moveTo (site.test + 1)
  have hdone := hbranch.moveTo (site.test + 2)
  have hdelete := hdone.moveTo (site.test + 3)
  have hstep := hsound.step_branch (m := m) hbranch hwidth
  rw [if_pos heq] at hstep
  obtain ⟨frame, tail, hframes, hholds⟩ := id hdelete
  have hframes₁ := frames_modifyTop (frames_modifyTop hframes fun frame =>
    { frame with locals := frame.locals.erase site.loop.iterator.id })
      fun frame => { frame with position := site.test + 4 }
  have hcursor₁ := cursor?_of_frames hframes₁ hholds.going
  have hframes₂ := frames_modifyTop (frames_modifyTop hframes₁ fun frame =>
    { frame with locals := frame.locals.erase site.bound.id })
      fun frame => { frame with position := site.exit }
  refine ⟨[_, _, _, _], _, .step (h.label hsound.lies.test) <| .step hstep <|
    .step (hdone.label hsound.lies.done) <|
    .step (step_delete hdelete.cursor hsound.lies.deleteIterator)
      (step_delete hcursor₁ hsound.lies.deleteBound).path, ?_, ?_, ?_, ?_⟩
  · have hexit : site.exit = site.test + 5 := rfl
    exact (inside_singleton hbranch.cursor (by omega) (by omega)).append <|
      (inside_singleton hdone.cursor (by omega) (by omega)).append <|
      (inside_singleton hdelete.cursor (by omega) (by omega)).append
        (inside_singleton (p := site.test + 4) hcursor₁ (by omega) (by omega))
  · exact cursor?_of_frames hframes₂ hholds.going
  · refine (value?_of_frames hframes₂ hsound.isLocal).trans ?_
    exact (Store.get?_erase_of_ne _ hsound.ne).trans (hholds.runs.distinct.get?_erase _)
  · refine (value?_of_frames hframes₂ rfl).trans ?_
    exact (hholds.runs.distinct.erase _).get?_erase _

/-- **The rounds reach the bound,** by induction on the way that is left. -/
theorem rounds (h : site.Counts code i b site.test s) (hi : i.width = .int) (hb : b.width = .int)
    (hends : site.BodyEnds m code s) : ∃ trace t, Inside site.start site.exit trace ∧
      site.Iterates m code i.val b.val s trace t := by
  have htest := site.start_lt_test
  induction hn : (b.val - i.val).natAbs generalizing i s with
  | zero =>
    have heq : i.val = b.val := by omega
    obtain ⟨rest, t, hpath, hinside, hcursor, hgone⟩ :=
      hsound.leave (m := m) h (hi.trans hb.symm) heq
    refine ⟨s :: rest, t, ?_, hpath, hcursor, ?_, ?_, hgone⟩
    · have hexit : site.test < site.exit := Nat.lt_add_of_pos_right (Nat.succ_pos 4)
      refine forall_mem_cons.mpr ⟨⟨_, h.cursor, Nat.le_of_lt htest, hexit⟩, ?_⟩
      exact hinside.mono (by omega) (Nat.le_refl _)
    · rw [visitsAt_cons_of_ne h.cursor (by omega), hinside.visitsAt_eq_nil (.inl (by omega)), heq,
        approaching_self]
      rfl
    · rw [visitsAt_cons h.cursor, hinside.visitsAt_eq_nil (.inl (by omega)), map_singleton,
        hsound.int_iterator h hi, heq, approaching_self]
      rfl
  | succ n ih =>
    have hne : i.val ≠ b.val := by omega
    obtain ⟨first, u, hpath, hinside, hstarts, htests, hcounts⟩ :=
      hsound.round (m := m) h hi hb hne hends
    have hval := (stepToward_holds hi hb).2
    have hleft : (b.val - (stepped i b).val).natAbs = n := by
      have hlength := congrArg List.length (approaching_of_ne hne)
      rw [length_cons, length_approaching, length_approaching, hn, ← hval] at hlength
      exact (Nat.succ.inj hlength).symm
    have hends' := hends.path hpath (hinside.mono (Nat.le_add_right _ 3) (Nat.le_refl _))
    obtain ⟨rest, t, hrest, hiterates⟩ := ih hcounts rfl hends' hleft
    refine ⟨first ++ rest, t, hinside.append hrest, hpath.append hiterates.path, hiterates.ends,
      ?_, ?_, hiterates.gone⟩
    · rw [visitsAt_append, map_append, hstarts, hiterates.rounds, approaching_of_ne hne, ← hval]
      rfl
    · rw [visitsAt_append, map_append, htests, hiterates.tests, approaching_of_ne hne, ← hval]
      rfl

/-- **A run through the code of a loop goes through its range.** -/
theorem runsRange {a : Word} (hframes : s.stack.frames = frame :: tail) (hruns : Runs code frame)
    (hcursor : s.cursor? = some site.entry) (ha : a.width = .int) (hb : b.width = .int)
    (hbounded : site.Bounded m s a b) (hends : site.BodyEnds m code s) :
    ∃ trace t, site.RunsRange m code a.val b.val s trace t := by
  obtain ⟨s₁, s₂, hupper, hlower⟩ := hbounded
  have hlies := hsound.lies
  -- the two declarations
  obtain ⟨frame₁, hframes₁, hruns₁, hgoing₁, hposition₁, hbound₁, -⟩ :=
    frames_declare hframes hruns hcursor hlies.declareBound hupper rfl
  have hcursor₁ := cursor?_of_frames hframes₁ hgoing₁
  rw [hposition₁] at hcursor₁
  obtain ⟨frame₂, hframes₂, hruns₂, hgoing₂, hposition₂, hiterator₂, hlocals₂⟩ :=
    frames_declare hframes₁ hruns₁ hcursor₁ hlies.declareIterator hlower hsound.isLocal
  have hkept : ¬ (Stmt.declare site.loop.iterator (some site.loop.lower)).Changes site.bound.id := by
    rintro (hstores | ⟨v, hv, hown | heq⟩)
    · exact hsound.lower hstores
    · obtain rfl := mem_singleton.mp hown
      exact hsound.ne hv.symm
    · cases heq
  have hcounts : site.Counts code a b (site.entry + 2) _ :=
    ⟨frame₂, tail, hframes₂, hruns₂, hgoing₂, hposition₂, hiterator₂,
      (hlocals₂ _ hkept).trans hbound₁⟩
  have hhead := Path.step (step_declare hcursor hlies.declareBound hupper)
    (.step (step_declare hcursor₁ hlies.declareIterator hlower)
      (step_goto hsound.placed hframes₂ hruns₂ hlies.test hcounts.cursor hlies.toTest).path)
  have hstart : site.start = site.entry + 3 := rfl
  have hhead_inside : Inside site.entry site.start [s, _, _] :=
    (inside_singleton hcursor (Nat.le_refl _) (by omega)).append <|
      (inside_singleton hcursor₁ (by omega) (by omega)).append
        (inside_singleton hcounts.cursor (by omega) (by omega))
  -- the rounds
  have htest := site.start_lt_test
  have hexit : site.exit = site.test + 5 := rfl
  have hends' := hends.path hhead (hhead_inside.mono (Nat.le_refl _) (by omega))
  obtain ⟨trace, t, hinside, hiterates⟩ :=
    hsound.rounds (m := m) (hcounts.moveTo site.test) ha hb hends'
  have hiterated := hiterates.after hhead hhead_inside
  refine ⟨_, t, hiterated, hlies, hiterated.path.leads, hiterated.count, _, _, rfl, hcursor,
    hcursor₁, ?_⟩
  refine forall_mem_cons.mpr ⟨⟨_, hcounts.cursor, Nat.le_refl _, by omega⟩, ?_⟩
  exact hinside.mono (by omega) (Nat.le_refl _)

end Sound

end LoopSite

end Parcel
