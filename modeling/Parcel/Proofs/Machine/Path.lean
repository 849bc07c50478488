import Parcel.Proofs.Code.Occurrence
import Parcel.Proofs.Direct.Calls
import Parcel.Proofs.Isolation

/-!
# Runs of code as paths

A run of code goes from state to state, one statement at a time. A statement that has a call in it
is one step all the same: what matters is how it ends once the call has fuel enough. A path records
the states that it goes through, so that one can say how often a run comes to a place and what the
variables are there.
-/

namespace Parcel

open Code List

/-! ### Stores without repetitions -/

namespace Store

variable {store : Store}

/-- No variable has two entries. -/
def Distinct (store : Store) : Prop :=
  (store.map Prod.fst).Nodup

lemma mem_keys_of_mem_set {id id' : VarId} {value : Value}
    (h : id' ∈ (store.set id value).map Prod.fst) : id' = id ∨ id' ∈ store.map Prod.fst := by
  obtain ⟨entry, hentry, rfl⟩ := mem_map.mp h
  exact (mem_of_mem_set hentry).imp (congrArg Prod.fst) mem_map_of_mem

lemma Distinct.set (h : store.Distinct) (id : VarId) (value : Value) :
    (store.set id value).Distinct := by
  induction store with
  | nil => exact nodup_singleton _
  | cons entry rest ih =>
    obtain ⟨hnew, hrest⟩ := nodup_cons.mp h
    by_cases hentry : entry.1 = id
    · rw [Store.set, if_pos hentry]
      exact nodup_cons.mpr ⟨hentry ▸ hnew, hrest⟩
    · rw [Store.set, if_neg hentry]
      refine nodup_cons.mpr ⟨fun hmem => ?_, ih hrest⟩
      exact (mem_keys_of_mem_set hmem).elim hentry hnew

lemma Distinct.erase (h : store.Distinct) (id : VarId) : (store.erase id).Distinct :=
  List.Nodup.sublist ((store.erase_sublist id).map Prod.fst) h

lemma get?_eq_none_of_notMem {id : VarId} (h : id ∉ store.map Prod.fst) :
    store.get? id = none :=
  Option.eq_none_iff_forall_ne_some.mpr fun _ hvalue => h (mem_map_of_mem (mem_of_get? hvalue))

/-- A variable that is taken away is gone. -/
lemma Distinct.get?_erase (h : store.Distinct) (id : VarId) :
    (store.erase id).get? id = none := by
  induction store with
  | nil => rfl
  | cons entry rest ih =>
    obtain ⟨hnew, hrest⟩ := nodup_cons.mp h
    by_cases hentry : entry.1 = id
    · rw [Store.erase, if_pos hentry]
      exact get?_eq_none_of_notMem (hentry ▸ hnew)
    · rw [Store.erase, if_neg hentry, get?, if_neg hentry, ih hrest]

lemma distinct_bindParams (params : List Var) (arguments : List Value) :
    (bindParams params arguments).Distinct := by
  have hfold : ∀ (pairs : List (Var × Value)) (store : Store), store.Distinct →
      (pairs.foldl (fun store pair => store.set pair.1.id pair.2) store).Distinct := by
    intro pairs
    induction pairs with
    | nil => exact fun store h => h
    | cons pair pairs ih => exact fun store h => ih _ (h.set _ _)
  exact hfold _ [] nodup_nil

end Store

/-! ### Steps and paths -/

section Cursor

variable {s : State} {p : Nat}

lemma exists_of_cursor? (h : s.cursor? = some p) : ∃ frame tail,
    s.stack.frames = frame :: tail ∧ frame.returned = false ∧ frame.position = p := by
  unfold State.cursor? Stack.top? at h
  cases hframes : s.stack.frames with
  | nil =>
    rw [hframes] at h
    cases h
  | cons frame tail =>
    rw [hframes, head?_cons, Option.bind_some] at h
    cases hreturned : frame.returned with
    | true =>
      rw [hreturned] at h
      cases h
    | false =>
      rw [hreturned] at h
      exact ⟨frame, tail, rfl, hreturned, Option.some.inj h⟩

lemma cursor?_of_frames {frame : Frame} {tail : List Frame} (h : s.stack.frames = frame :: tail)
    (hgoing : frame.returned = false) : s.cursor? = some frame.position := by
  rw [State.cursor?, top?_of_frames h, Option.bind_some, hgoing]
  rfl

end Cursor

/-- The expression has this value, and leaves this state, once there is fuel enough for the calls in
it. -/
def Evaluates (m : Machine) (e : Expr) (s : State) (value : Value) (t : State) : Prop :=
  ∃ enough, ∀ k, enough ≤ k → eval m (call m k) e s = .ok value t

/-- The statement at which the innermost frame stands is executed. -/
inductive Step (m : Machine) (code : Array Stmt) (s : State) : State → Prop
  | intro {p enough stmt jumped t} (hcursor : s.cursor? = some p) (hstmt : code[p]? = some stmt)
    (hexecute : ∀ k, enough ≤ k → execute m (call m k) stmt s = .ok jumped t) :
    Step m code s (t.moveTo (jumped.getD (p + 1)))

/-- Steps from one state to another, with the states in which they are taken. -/
inductive Path (m : Machine) (code : Array Stmt) : State → List State → State → Prop
  | refl (s : State) : Path m code s [] s
  | step {s t u trace} (hstep : Step m code s t) (hpath : Path m code t trace u) :
    Path m code s (s :: trace) u

/-- The states that a call goes through in its own frame. -/
inductive Visits (m : Machine) (f : FunctionSymbol) (code : Array Stmt) : State → Prop
  | enter (s : State) (file : Option Nat) (arguments : List Value) (result : Value) :
    Visits m f code (s.onStack (·.push
      (Frame.enter f.qualifiedName file code (bindParams f.params arguments) result)))
  | step {s t : State} (h : Visits m f code s) (hstep : Step m code s t) : Visits m f code t

/-- All steps are taken between two positions, the second one excluded. -/
def Inside (first last : Nat) (trace : List State) : Prop :=
  ∀ s ∈ trace, ∃ p, s.cursor? = some p ∧ first ≤ p ∧ p < last

section Paths

variable {m : Machine} {code : Array Stmt} {s t u : State} {trace trace' : List State}

lemma Step.leads (h : Step m code s t) : Leads m code s t := by
  obtain ⟨hcursor, hstmt, hexecute⟩ := h
  obtain ⟨frame, tail, hframes, hgoing, rfl⟩ := exists_of_cursor? hcursor
  exact (leadsOn_step hframes hgoing hstmt hexecute).leads

/-- **A run goes on** as from the end of a path. -/
theorem Path.leads (h : Path m code s trace t) : Leads m code s t := by
  induction h with
  | refl s => exact .refl m code s
  | step hstep _ ih => exact hstep.leads.trans ih

lemma Step.path (h : Step m code s t) : Path m code s [s] t :=
  .step h (.refl t)

lemma Path.append (h : Path m code s trace t) (h' : Path m code t trace' u) :
    Path m code s (trace ++ trace') u := by
  induction h with
  | refl => exact h'
  | step hstep _ ih => exact .step hstep (ih h')

end Paths

section Inside

variable {first last : Nat} {trace trace' : List State}

variable {s : State} {p : Nat}

lemma Inside.append (h : Inside first last trace) (h' : Inside first last trace') :
    Inside first last (trace ++ trace') :=
  forall_mem_append.mpr ⟨h, h'⟩

lemma Inside.mono {first' last' : Nat} (h : Inside first last trace) (hfirst : first' ≤ first)
    (hlast : last ≤ last') : Inside first' last' trace := by
  intro s hs
  obtain ⟨p, hp, hle, hlt⟩ := h s hs
  exact ⟨p, hp, Nat.le_trans hfirst hle, Nat.lt_of_lt_of_le hlt hlast⟩

lemma inside_singleton (h : s.cursor? = some p) (hfirst : first ≤ p) (hlast : p < last) :
    Inside first last [s] :=
  forall_mem_singleton.mpr ⟨p, h, hfirst, hlast⟩

/-- The states of a path in which it is at a position. -/
def visitsAt (p : Nat) (trace : List State) : List State :=
  trace.filter (·.cursor? = some p)

lemma visitsAt_append (p : Nat) (trace trace' : List State) :
    visitsAt p (trace ++ trace') = visitsAt p trace ++ visitsAt p trace' :=
  filter_append ..

/-- A path does not come to positions that it does not go through. -/
lemma Inside.visitsAt_eq_nil (h : Inside first last trace) (hp : p < first ∨ last ≤ p) :
    visitsAt p trace = [] := by
  rw [visitsAt, filter_eq_nil_iff]
  intro s hs hat
  obtain ⟨q, hq, hle, hlt⟩ := h s hs
  obtain rfl := Option.some.inj (hq.symm.trans (of_decide_eq_true hat))
  omega

lemma visitsAt_cons (h : s.cursor? = some p) (trace : List State) :
    visitsAt p (s :: trace) = s :: visitsAt p trace :=
  filter_cons_of_pos (decide_eq_true h)

lemma visitsAt_cons_of_ne {q : Nat} (h : s.cursor? = some q) (hne : q ≠ p) (trace : List State) :
    visitsAt p (s :: trace) = visitsAt p trace := by
  refine filter_cons_of_neg fun hat => hne ?_
  exact Option.some.inj (h.symm.trans (of_decide_eq_true hat))

end Inside

/-! ### What a statement leaves of its frame -/

section Statements

variable {Q : Frame → Prop} {tail : List Frame} {m : Machine} {fuel : Nat}

lemma safe_execute_inFrame (stmt : Stmt)
    (hset : ∀ id, stmt.Changes id → ∀ frame value, Q frame →
      Q { frame with locals := frame.locals.set id value })
    (herase : ∀ id, stmt.Changes id → ∀ frame, Q frame →
      Q { frame with locals := frame.locals.erase id })
    (hret : ∀ value, stmt = .ret value → ∀ frame result, Q frame →
      Q { frame with result, returned := true }) :
    Safe (InFrame Q (fun _ => True) tail) AnyCause (execute m (call m fuel) stmt) := by
  have kept : Kept (InFrame Q (fun _ => True) tail)
      (fun a => ∀ v, a = .write v → v.isGlobal = false → stmt.Changes v.id) AnyCause :=
    kept_inFrame (fun v value hv hlocal frame => hset v.id (hv v rfl hlocal) frame value)
      (fun _ _ _ _ _ _ => trivial) (fun _ _ _ _ _ _ _ => trivial) fun _ _ => trivial
  have hinvoke (f : FunctionSymbol) (arguments : List Value) (receiver : Option Value) :
      Safe (InFrame Q (fun _ => True) tail) AnyCause (call m fuel f arguments receiver) := by
    refine safe_of_atFrames (leavesFrames_call m fuel f arguments receiver) (fun _ _ => trivial) ?_
    rintro s s' ⟨frame, hframes, hframe, -⟩ heq -
    exact ⟨frame, heq.trans hframes, hframe, trivial⟩
  refine triple_execute kept (fun _ hs => hs) (fun f arguments receiver _ => hinvoke f arguments receiver)
    (fun a ha v hv hlocal => .inl ⟨v, rfl, hlocal, hv ▸ ha⟩) ?_ ?_ ?_ ?_ (fun _ _ hs => hs)
    fun _ _ => trivial
  · rintro v initializer rfl value
    refine kept.storeVar ?_ value
    rintro _ ⟨⟩ -
    exact .inr ⟨v, rfl, .inl (mem_singleton.mpr rfl)⟩
  · exact fun value hvalue result => triple_modifyFrame fun frame =>
      hret value hvalue frame (result frame)
  · exact fun v hv => triple_modifyFrame fun frame => herase v.id (.inr ⟨v, rfl, .inr hv⟩) frame
  · intro label _
    refine Triple.bind (M := fun _ => InFrame Q (fun _ => True) tail) (fun _ hs => hs) fun s => ?_
    split
    · exact triple_pure fun _ hs => hs
    · exact triple_fail trivial fun _ hs => hs

end Statements

/-- The frame runs this code: it knows where the labels are, and no variable has two entries. -/
structure Runs (code : Array Stmt) (frame : Frame) : Prop where
  labels : frame.labels = labelPositions code
  distinct : frame.locals.Distinct

/-- What a statement leaves of its frame: where the labels are, that no variable has two entries,
the values of the variables that it does not change, and whether the call has returned unless it is
a `return` itself. -/
structure Leaves (stmt : Stmt) (frame frame' : Frame) : Prop where
  labels : frame'.labels = frame.labels
  distinct : frame.locals.Distinct → frame'.locals.Distinct
  locals : ∀ id, ¬ stmt.Changes id → frame'.locals.get? id = frame.locals.get? id
  returned : (∀ value, stmt ≠ .ret value) → frame'.returned = frame.returned

section Frames

variable {m : Machine} {code : Array Stmt} {s t : State} {frame frame' : Frame}
  {tail : List Frame}

lemma Leaves.runs {stmt : Stmt} (h : Leaves stmt frame frame') (hruns : Runs code frame) :
    Runs code frame' :=
  ⟨h.labels.trans hruns.labels, h.distinct hruns.distinct⟩

/-- **A step changes its frame only,** and there what its statement may change. -/
theorem Step.leaves (h : Step m code s t) (hframes : s.stack.frames = frame :: tail) :
    ∃ stmt frame', code[frame.position]? = some stmt ∧ t.stack.frames = frame' :: tail ∧
      Leaves stmt frame frame' := by
  obtain ⟨hcursor, hstmt, hexecute⟩ := h
  rename_i p enough stmt jumped t
  obtain ⟨_, _, hframes', -, rfl⟩ := exists_of_cursor? hcursor
  obtain ⟨rfl, rfl⟩ := List.cons.inj (hframes.symm.trans hframes')
  have hsafe : Safe (InFrame (Leaves stmt frame) (fun _ => True) tail) AnyCause
      (execute m (call m enough) stmt) := by
    refine safe_execute_inFrame stmt ?_ ?_ ?_
    · intro changed hchanged frame' value hleaves
      refine ⟨hleaves.labels, fun h => (hleaves.distinct h).set _ _, fun id hid => ?_,
        hleaves.returned⟩
      have hne : changed ≠ id := fun heq => hid (heq ▸ hchanged)
      rw [Store.get?_set, if_neg hne]
      exact hleaves.locals id hid
    · intro changed hchanged frame' hleaves
      refine ⟨hleaves.labels, fun h => (hleaves.distinct h).erase _, fun id hid => ?_,
        hleaves.returned⟩
      have hne : changed ≠ id := fun heq => hid (heq ▸ hchanged)
      exact (Store.get?_erase_of_ne _ hne).trans (hleaves.locals id hid)
    · rintro value rfl frame' result hleaves
      exact ⟨hleaves.labels, hleaves.distinct, hleaves.locals, fun h => absurd rfl (h value)⟩
  have hstart : InFrame (Leaves stmt frame) (fun _ => True) tail s :=
    ⟨frame, hframes, ⟨rfl, id, fun _ _ => rfl, fun _ => rfl⟩, trivial⟩
  have hends := hsafe s hstart
  rw [hexecute enough (Nat.le_refl _)] at hends
  obtain ⟨frame', ht, hleaves, -⟩ := hends
  refine ⟨stmt, _, hstmt, frames_modifyTop ht _, ?_⟩
  exact ⟨hleaves.labels, hleaves.distinct, hleaves.locals, hleaves.returned⟩

lemma Visits.runs {f : FunctionSymbol} (h : Visits m f code s) :
    ∃ frame tail, s.stack.frames = frame :: tail ∧ Runs code frame := by
  induction h with
  | enter s =>
    exact ⟨_, s.stack.frames, rfl, rfl, Store.distinct_bindParams _ _⟩
  | step _ hstep ih =>
    obtain ⟨frame, tail, hframes, hruns⟩ := ih
    obtain ⟨_, frame', -, hframes', hleaves⟩ := hstep.leaves hframes
    exact ⟨frame', tail, hframes', hleaves.runs hruns⟩

/-- **A path keeps the variables** that no statement on its way may change. -/
theorem Path.leaves {trace : List State} {first last : Nat} (h : Path m code s trace t)
    (hinside : Inside first last trace) (hframes : s.stack.frames = frame :: tail)
    (hruns : Runs code frame) :
    ∃ frame', t.stack.frames = frame' :: tail ∧ Runs code frame' ∧
      ∀ id, (∀ q stmt, first ≤ q → q < last → code[q]? = some stmt → ¬ stmt.Changes id) →
        frame'.locals.get? id = frame.locals.get? id := by
  induction h generalizing frame with
  | refl => exact ⟨frame, hframes, hruns, fun _ _ => rfl⟩
  | step hstep _ ih =>
    obtain ⟨⟨p, hcursor, hfirst, hlast⟩, hinside⟩ := forall_mem_cons.mp hinside
    obtain ⟨_, _, hframes', -, rfl⟩ := exists_of_cursor? hcursor
    obtain ⟨rfl, rfl⟩ := List.cons.inj (hframes.symm.trans hframes')
    obtain ⟨stmt, frame₁, hstmt, hframes₁, hleaves⟩ := hstep.leaves hframes
    obtain ⟨frame', hframes', hruns', hlocals⟩ := ih hinside hframes₁ (hleaves.runs hruns)
    refine ⟨frame', hframes', hruns', fun id hid => ?_⟩
    exact (hlocals id hid).trans (hleaves.locals id (hid _ stmt hfirst hlast hstmt))

end Frames

/-! ### Kinds of steps -/

section Kinds

variable {m : Machine} {code : Array Stmt} {s t : State} {frame : Frame} {tail : List Frame}
  {p q : Nat} {e : Expr} {value : Value}

lemma Evaluates.frames (h : Evaluates m e s value t) (hframes : s.stack.frames = frame :: tail) :
    ∃ locals, t.stack.frames = { frame with locals } :: tail := by
  obtain ⟨enough, heval⟩ := h
  have hends := safe_eval_within (m := m) (changing_expr e) (leavesFrames_call m enough) e
    s.stack.frames s (.refl (changing_expr e).refl _)
  rw [heval enough (Nat.le_refl _), hframes] at hends
  obtain ⟨frame', hframe', hchanges⟩ := hends.exists_head? frame rfl
  have htail : t.stack.frames.tail = tail := hends.tail_eq
  refine ⟨frame'.locals, ?_⟩
  rw [← hchanges, ← htail]
  exact (eq_cons_of_mem_head? hframe')

lemma step_label {label : Label} (hcursor : s.cursor? = some p)
    (hstmt : code[p]? = some (.label label)) : Step m code s (s.moveTo (p + 1)) :=
  @Step.intro m code s p 0 _ none s hcursor hstmt fun _ _ => rfl

lemma step_delete {v : Var} (hcursor : s.cursor? = some p) (hstmt : code[p]? = some (.delete v)) :
    Step m code s ((s.onStack (·.modifyTop fun frame =>
      { frame with locals := frame.locals.erase v.id })).moveTo (p + 1)) :=
  @Step.intro m code s p 0 _ none _ hcursor hstmt fun _ _ => rfl

lemma step_expr (hcursor : s.cursor? = some p) (hstmt : code[p]? = some (.expr e))
    (h : Evaluates m e s value t) : Step m code s (t.moveTo (p + 1)) := by
  obtain ⟨enough, heval⟩ := h
  exact @Step.intro m code s p enough _ none t hcursor hstmt fun k hk => exec_bind_ok (heval k hk) _

lemma step_declare {v : Var} (hcursor : s.cursor? = some p)
    (hstmt : code[p]? = some (.declare v (some e))) (h : Evaluates m e s value t) :
    Step m code s ((t.assign v value).moveTo (p + 1)) := by
  obtain ⟨frame, tail, hframes, -, -⟩ := exists_of_cursor? hcursor
  obtain ⟨locals, hframes'⟩ := h.frames hframes
  obtain ⟨enough, heval⟩ := h
  refine @Step.intro m code s p enough _ none _ hcursor hstmt fun k hk => ?_
  have hstore := storeVar_holds (holds_of_frames hframes' v) value
  exact (exec_bind_ok (heval k hk) _).trans (exec_bind_ok hstore _)

/-- After a declaration the variable has its value, and what the initializer does not change is as
before. -/
lemma frames_declare {v : Var} (hframes : s.stack.frames = frame :: tail) (hruns : Runs code frame)
    (hcursor : s.cursor? = some p) (hstmt : code[p]? = some (.declare v (some e)))
    (h : Evaluates m e s value t) (hlocal : v.isGlobal = false) :
    ∃ frame', ((t.assign v value).moveTo (p + 1)).stack.frames = frame' :: tail ∧
      Runs code frame' ∧ frame'.returned = false ∧ frame'.position = p + 1 ∧
      frame'.locals.get? v.id = some value ∧
      ∀ id, ¬ (Stmt.declare v (some e)).Changes id →
        frame'.locals.get? id = frame.locals.get? id := by
  obtain ⟨_, _, hframes', hgoing, rfl⟩ := exists_of_cursor? hcursor
  obtain ⟨rfl, rfl⟩ := List.cons.inj (hframes.symm.trans hframes')
  obtain ⟨stmt, frame', hstmt', hframes', hleaves⟩ := (step_declare hcursor hstmt h).leaves hframes
  obtain rfl := Option.some.inj (hstmt.symm.trans hstmt')
  obtain ⟨locals, hframes₁⟩ := h.frames hframes
  refine ⟨frame', hframes', hleaves.runs hruns, ?_, ?_, ?_, hleaves.locals⟩
  · exact (hleaves.returned fun _ heq => Stmt.noConfusion heq).trans hgoing
  all_goals
    rw [State.assign, hlocal, if_neg Bool.false_ne_true] at hframes'
    obtain ⟨rfl, -⟩ := List.cons.inj
      (hframes'.symm.trans (frames_modifyTop (frames_modifyTop hframes₁ _) _))
  · rfl
  · exact (Store.get?_set ..).trans (if_pos rfl)

section Jumps

variable {label : Label} (hplaced : (Body.lowered code).placed.Nodup)
  (hframes : s.stack.frames = frame :: tail) (hruns : Runs code frame)
  (hlabel : code[q]? = some (.label label))
include hplaced hframes hruns hlabel

lemma jump_of_runs : jump label s = .ok q s := by
  refine jump_of_frames hframes ?_
  rw [Frame.position?, hruns.labels, position_of_nodup hplaced hlabel]

lemma step_goto (hcursor : s.cursor? = some p) (hstmt : code[p]? = some (.goto label)) :
    Step m code s (s.moveTo q) :=
  @Step.intro m code s p 0 _ (some q) s hcursor hstmt fun _ _ =>
    exec_bind_ok (jump_of_runs hplaced hframes hruns hlabel) _

lemma step_gotoIf {taken : Bool} (hcursor : s.cursor? = some p)
    (hstmt : code[p]? = some (.gotoIf e label)) (h : Evaluates m e s (.bool taken) s) :
    Step m code s (s.moveTo (if taken then q else p + 1)) := by
  obtain ⟨enough, heval⟩ := h
  cases taken with
  | false =>
    exact @Step.intro m code s p enough _ none s hcursor hstmt fun k hk =>
      exec_bind_ok (heval k hk) _
  | true =>
    refine @Step.intro m code s p enough _ (some q) s hcursor hstmt fun k hk => ?_
    exact (exec_bind_ok (heval k hk) _).trans
      (exec_bind_ok (jump_of_runs hplaced hframes hruns hlabel) _)

end Jumps

end Kinds

end Parcel
