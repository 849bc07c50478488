import Parcel.Proofs.Machine.Activity
import Parcel.Proofs.Machine.Contract

/-!
# Calls are isolated

Whatever a machine does, and however it ends, it leaves as many frames as there were, and those
below the innermost one as they were. A call works in a frame of its own and leaves all frames as
they were; an expression changes the local variables of the innermost frame at most.

## Main results

* `Activity.safe_run` — activities change the innermost frame at most, and there what they may.
* `Starts.shallow` — no activity starts another one too deep.
* `activities_isolated` — activities are isolated, and the stack stays within its limit.
-/

namespace Parcel

open Code

variable {s t : State} {moment : Moment} {α : Type} {c : Exec α} {a : α}

/-! ### Stacks that differ in their innermost frame -/

/-- Stacks that differ in their innermost frame at most, and there as `changes` says. -/
inductive OnlyTop (changes : Frame → Frame → Prop) : List Frame → List Frame → Prop
  | empty : OnlyTop changes [] []
  | top {frame frame' : Frame} (tail : List Frame) (h : changes frame frame') :
    OnlyTop changes (frame :: tail) (frame' :: tail)

/-- Changes that can be made one after the other, among them those of local variables. -/
structure Changing (changes : Frame → Frame → Prop) : Prop where
  refl : ∀ frame, changes frame frame
  trans : ∀ {a b c : Frame}, changes a b → changes b c → changes a c
  locals : ∀ (frame : Frame) (locals : Store), changes frame { frame with locals }

namespace OnlyTop

variable {changes : Frame → Frame → Prop} {frames frames' frames'' : List Frame}

lemma refl (h : ∀ frame, changes frame frame) (frames : List Frame) :
    OnlyTop changes frames frames := by
  cases frames with
  | nil => exact .empty
  | cons frame tail => exact .top tail (h frame)

lemma length_eq (h : OnlyTop changes frames frames') : frames'.length = frames.length := by
  cases h <;> rfl

lemma tail_eq (h : OnlyTop changes frames frames') : frames'.tail = frames.tail := by
  cases h <;> rfl

lemma exists_head? (h : OnlyTop changes frames frames') :
    ∀ frame ∈ frames.head?, ∃ frame' ∈ frames'.head?, changes frame frame' := by
  cases h with
  | empty => rintro frame ⟨⟩
  | top tail h =>
    rintro frame ⟨⟩
    exact ⟨_, rfl, h⟩

lemma modifyHead (hchanges : Changing changes) {f : Frame → Frame}
    (h : OnlyTop changes frames frames') (hf : ∀ frame, changes frame (f frame)) :
    OnlyTop changes frames (frames'.modifyHead f) := by
  cases h with
  | empty => exact .empty
  | top tail hframe => exact .top tail (hchanges.trans hframe (hf _))

end OnlyTop

/-- The stack of a state differs from `frames` in its innermost frame at most. -/
def Within (changes : Frame → Frame → Prop) (frames : List Frame) (s : State) : Prop :=
  OnlyTop changes frames s.stack.frames

/-- Any fault is allowed. -/
def AnyCause (_ : FaultCause) : Prop := True

/-! ### Expressions and statements -/

section Changes

variable {changes : Frame → Frame → Prop} (hchanges : Changing changes)
include hchanges

lemma safe_modifyFrame {f : Frame → Frame} (hf : ∀ frame, changes frame (f frame))
    (frames : List Frame) : Safe (Within changes frames) AnyCause (Exec.modifyFrame f) :=
  fun _ hs => hs.modifyHead hchanges hf

/-- Expressions may be evaluated where local variables may change. -/
lemma kept_within (frames : List Frame) :
    Kept (Within changes frames) (fun _ => True) AnyCause where
  setHeap _ h := h
  setSink _ h := h
  addRecovered _ h := h
  read _ _ _ := trivial
  write {s v} value hs _ := by
    refine ⟨fun _ => trivial, fun _ => ?_⟩
    unfold State.assign
    split
    · exact hs
    · exact hs.modifyHead hchanges fun frame => hchanges.locals frame _
  ofOperation _ _ := trivial

end Changes

section Runs

variable {changes : Frame → Frame → Prop} {m : Machine} {invoke : Invoke}

/-- Calls leave all frames as they were. -/
def LeavesFrames (invoke : Invoke) : Prop :=
  ∀ f arguments receiver frames,
    Safe (AtFrames (fun _ => True) frames) AnyCause (invoke f arguments receiver)

lemma LeavesFrames.within (hinvoke : LeavesFrames invoke) (f : FunctionSymbol)
    (arguments : List Value) (receiver : Option Value) (frames : List Frame) :
    Safe (Within changes frames) AnyCause (invoke f arguments receiver) :=
  safe_of_atFrames (hinvoke f arguments receiver) (fun _ _ => trivial) fun _ _ hs heq _ => by
    rwa [Within, heq]

section Statements

variable (hchanges : Changing changes) (hinvoke : LeavesFrames invoke)
include hchanges hinvoke

lemma safe_eval_within (e : Expr) (frames : List Frame) :
    Safe (Within changes frames) AnyCause (eval m invoke e) :=
  safe_eval (kept_within hchanges frames) m
    (fun f arguments receiver _ => hinvoke.within f arguments receiver frames) e fun _ _ => trivial

lemma safe_evalAll_within (es : List Expr) (frames : List Frame) :
    Safe (Within changes frames) AnyCause (evalAll m invoke es) := by
  induction es with
  | nil => exact triple_pure fun _ hs => hs
  | cons e es ih =>
    exact Triple.bind (safe_eval_within hchanges hinvoke e frames) fun _ =>
      Triple.bind ih fun _ => triple_pure fun _ hs => hs

/-- Statements may be executed where the result of the call may change as well. -/
lemma safe_execute_within
    (hresult : ∀ (frame : Frame) (result : Value), changes frame { frame with result, returned := true })
    (stmt : Stmt) (frames : List Frame) :
    Safe (Within changes frames) AnyCause (execute m invoke stmt) := by
  refine triple_execute (kept_within hchanges frames) (fun _ hs => hs)
    (fun f arguments receiver _ => hinvoke.within f arguments receiver frames) (fun _ _ => trivial)
    (fun v _ _ value => (kept_within hchanges frames).storeVar trivial value) ?_ ?_ ?_
    (fun _ _ hs => hs) fun _ _ => trivial
  · exact fun _ _ result => safe_modifyFrame hchanges (fun frame => hresult frame (result frame)) frames
  · exact fun v _ => safe_modifyFrame hchanges (fun frame => hchanges.locals frame _) frames
  · intro label _
    refine Triple.bind (M := fun _ => Within changes frames) (fun _ hs => hs) fun s => ?_
    split
    · exact triple_pure fun _ hs => hs
    · exact triple_fail trivial fun _ hs => hs

end Statements

/-! ### Activities -/

/-- What an activity may change in the innermost frame: an expression its local variables, a
statement also what the call gives and whether it has returned, code also its position, and the rest
nothing. -/
def Activity.Changes : Activity → Frame → Frame → Prop
  | expr _, frame, frame' => frame' = { frame with locals := frame'.locals }
  | stmt _, frame, frame' => frame' =
    { frame with locals := frame'.locals, result := frame'.result, returned := frame'.returned }
  | code _, frame, frame' => frame' =
    { frame with
      position := frame'.position, locals := frame'.locals, result := frame'.result,
      returned := frame'.returned }
  | entry _, frame, frame' | reset _, frame, frame' | group _, frame, frame'
  | call _ _ _, frame, frame' => frame' = frame

lemma Activity.changes_refl (activity : Activity) (frame : Frame) :
    activity.Changes frame frame := by
  cases activity <;> rfl

lemma Activity.changing (activity : Activity)
    (hlocals : ∀ frame locals, activity.Changes frame { frame with locals }) :
    Changing activity.Changes where
  refl := activity.changes_refl
  trans {a b c} h₁ h₂ := by
    cases a; cases b; cases c
    cases activity <;> cases h₁ <;> cases h₂ <;> rfl
  locals := hlocals

lemma changing_expr (e : Expr) : Changing (Activity.expr e).Changes :=
  (Activity.expr e).changing fun _ _ => rfl

lemma changing_stmt (part : Stmt) : Changing (Activity.stmt part).Changes :=
  (Activity.stmt part).changing fun _ _ => rfl

lemma changing_code (body : Array Stmt) : Changing (Activity.code body).Changes :=
  (Activity.code body).changing fun _ _ => rfl

/-- The run of a body changes its own frame only, so it leaves those below. -/
lemma triple_above {run : Exec Unit} {code : Array Stmt} {frame : Frame} {frames : List Frame}
    (hrun : Safe (Within (Activity.code code).Changes (frame :: frames)) AnyCause run) :
    Triple AnyCause (AboveFrames (fun _ => True) frames)
      (AtFrames (fun _ => True) (frame :: frames)) run fun _ => AboveFrames (fun _ => True) frames := by
  have above {t : State} (ht : Within (Activity.code code).Changes (frame :: frames) t) :
      AboveFrames (fun _ => True) frames t := ⟨ht.tail_eq, trivial⟩
  rintro s ⟨hs, -⟩
  have hstart : Within (Activity.code code).Changes (frame :: frames) s := by
    rw [Within, hs]
    exact .refl (changing_code code).refl _
  exact (hrun s hstart).mono (fun _ => above) fun _ _ => above

lemma leavesFrames_callWith {run : Array Stmt → Exec Unit}
    (hrun : ∀ code frames, Safe (Within (Activity.code code).Changes frames) AnyCause (run code)) :
    LeavesFrames (callWith m run) := by
  intro f arguments receiver frames
  refine safe_callWith (fun _ _ => trivial) trivial (fun _ _ _ => trivial) ?_ receiver
  exact fun _ file code _ result => triple_above (hrun code _)

/-- **Code changes its own frame only.** -/
theorem safe_runCode_within (fuel : Nat) (code : Array Stmt) (frames : List Frame) :
    Safe (Within (Activity.code code).Changes frames) AnyCause (runCode m fuel code) := by
  have hchanges := changing_code code
  induction fuel generalizing code frames with
  | zero => exact fun _ _ => trivial
  | succ fuel ih =>
    have hinvoke : LeavesFrames (callWith m (runCode m fuel)) :=
      leavesFrames_callWith fun code frames => ih code frames (changing_code code)
    have hdone : Safe (Within (Activity.code code).Changes frames) AnyCause (pure ()) :=
      triple_pure fun _ hs => hs
    refine Triple.bind (M := fun _ => Within (Activity.code code).Changes frames)
      (fun _ hs => hs) fun s => ?_
    split
    next frame _ =>
      split
      · exact hdone
      · split
        next stmt _ =>
          have hexecute := safe_execute_within (m := m) hchanges hinvoke (fun _ _ => rfl) stmt frames
          refine Triple.bind hexecute fun next => ?_
          refine Triple.bind (safe_modifyFrame hchanges (fun frame => ?_) frames) fun _ => ?_
          · exact rfl
          · exact ih code frames hchanges
        next => exact hdone
    next => exact hdone

end Runs

lemma leavesFrames_call (m : Machine) (fuel : Nat) : LeavesFrames (call m fuel) :=
  leavesFrames_callWith fun code frames => safe_runCode_within fuel code frames

section Whole

variable (m : Machine) (frames : List Frame)

lemma safe_setDefault (v : Var) :
    Safe (AtFrames (fun _ => True) frames) AnyCause (setDefault m v) := by
  have kept : Kept (AtFrames (fun _ => True) frames) (fun _ => False) AnyCause :=
    kept_atFrames _ frames fun _ _ => trivial
  exact Triple.bind (kept.onHeap _) fun _ _ hs => hs

lemma safe_runGroup (fuel : Nat) (group : GlobalGroup) :
    Safe (AtFrames (fun _ => True) frames) AnyCause (runGroup m fuel group) := by
  have hcode := safe_runCode_within (m := m) fuel group.stmts.toArray
  exact Triple.bind (triple_withFrame (triple_above (hcode _))) fun _ => triple_pure fun _ hs => hs

lemma safe_runGlobals (fuel : Nat) (entry : String) :
    Safe (AtFrames (fun _ => True) frames) AnyCause (runGlobals m fuel entry) := by
  rw [runGlobals_eq]
  exact Triple.bind (safe_forM _ fun v _ => safe_setDefault m frames v) fun _ =>
    safe_forM _ fun group _ => safe_runGroup m frames fuel group

lemma safe_defaultArguments (f : FunctionSymbol) :
    Safe (AtFrames (fun _ => True) frames) AnyCause (defaultArguments m f) := by
  have kept : Kept (AtFrames (fun _ => True) frames) (fun _ => False) AnyCause :=
    kept_atFrames _ frames fun _ _ => trivial
  intro s hs
  exact (triple_mapM f.params (fun v _ => kept.onHeap _) s hs).mono (fun _ h => h) fun _ _ h => h.2

lemma safe_runEntry (fuel : Nat) (entry : FunctionSymbol) :
    Safe (AtFrames (fun _ => True) frames) AnyCause (runEntry m fuel entry) :=
  Triple.bind (safe_runGlobals m frames fuel entry.package) fun _ =>
    Triple.bind (safe_defaultArguments m frames entry) fun arguments =>
      leavesFrames_call m fuel entry arguments none frames

end Whole

/-- **Activities change the innermost frame at most**, and there only what they may. -/
theorem Activity.safe_run (m : Machine) (fuel : Nat) (activity : Activity) (frames : List Frame) :
    Safe (Within activity.Changes frames) AnyCause (activity.run m fuel) := by
  have leaving {α : Type} {c : Exec α} {changes : Frame → Frame → Prop}
      (h : ∀ frames, Safe (AtFrames (fun _ => True) frames) AnyCause c) :
      Safe (Within changes frames) AnyCause c :=
    safe_of_atFrames h (fun _ _ => trivial) fun _ _ hs heq _ => by rwa [Within, heq]
  have giving {α : Type} {c : Exec α} {changes : Frame → Frame → Prop}
      (h : Safe (Within changes frames) AnyCause c) (value : α → Option Value) :
      Safe (Within changes frames) AnyCause (c >>= fun a => pure (value a)) :=
    Triple.bind h fun _ => triple_pure fun _ hs => hs
  have hinvoke := leavesFrames_call m fuel
  cases activity with
  | entry f => exact giving (leaving fun frames => safe_runEntry m frames fuel f) some
  | reset v => exact giving (leaving fun frames => safe_setDefault m frames v) fun _ => none
  | group g => exact giving (leaving fun frames => safe_runGroup m frames fuel g) fun _ => none
  | call f arguments receiver => exact giving (leaving (hinvoke f arguments receiver)) some
  | code body => exact giving (safe_runCode_within fuel body frames) fun _ => none
  | stmt part =>
    exact giving (safe_execute_within (changing_stmt part) hinvoke (fun _ _ => rfl) part frames)
      fun _ => none
  | expr e => exact giving (safe_eval_within (changing_expr e) hinvoke e frames) some

/-- What an activity may change in the stack: as many frames are left as there were, those below the
innermost one as they were, and the innermost one with such changes as the activity may make. -/
structure Activity.Isolated (activity : Activity) (s t : State) : Prop where
  count : t.stack.frames.length = s.stack.frames.length
  below : t.stack.frames.tail = s.stack.frames.tail
  top : ∀ frame ∈ s.stack.top?, ∃ frame' ∈ t.stack.top?, activity.Changes frame frame'

/-- **Activities are isolated.** -/
theorem Activity.ends_isolated (m : Machine) (fuel : Nat) (activity : Activity) (s : State) :
    Ends AnyCause (activity.Isolated s) (fun _ => activity.Isolated s) (activity.run m fuel s) := by
  have isolated {t : State} (h : Within activity.Changes s.stack.frames t) : activity.Isolated s t :=
    ⟨h.length_eq, h.tail_eq, h.exists_head?⟩
  have hstart : Within activity.Changes s.stack.frames s := .refl activity.changes_refl _
  exact (activity.safe_run m fuel _ s hstart).mono (fun _ => isolated) fun _ _ => isolated

/-! ### The depth of calls -/

/-- The number of frames that a run may have: as many as calls may be unfinished, and one for the
declarations of variables in any case. -/
def Machine.frameLimit (m : Machine) : Nat :=
  max m.mode.maxCallDepth 1

/-- The stack is within its limit; what a run does besides calls, it does without a frame. -/
def Moment.Shallow (m : Machine) (moment : Moment) : Prop :=
  match moment.activity with
  | .entry _ | .reset _ | .group _ => moment.state.stack.frames = []
  | .call _ _ _ | .code _ | .stmt _ | .expr _ =>
    moment.state.stack.frames.length ≤ m.frameLimit

lemma Moment.Shallow.length_le {m : Machine} (h : moment.Shallow m) :
    moment.state.stack.frames.length ≤ m.frameLimit := by
  obtain ⟨fuel, activity, s⟩ := moment
  cases activity with
  | entry | reset | group => rw [show s.stack.frames = [] from h]; exact Nat.zero_le _
  | call | code | stmt | expr => exact h

/-- The frames after a computation that leaves them. -/
lemma Safe.frames_eq (h : ∀ frames, Safe (AtFrames (fun _ => True) frames) AnyCause c)
    (hc : c s = .ok a t) : t.stack.frames = s.stack.frames := by
  have hends := h s.stack.frames s ⟨rfl, trivial⟩
  rw [hc] at hends
  exact hends.1

/-- The number of frames after a computation that changes the innermost one at most. -/
lemma Safe.length_frames {changes : Frame → Frame → Prop} (hrefl : ∀ frame, changes frame frame)
    (h : ∀ frames, Safe (Within changes frames) AnyCause c) (hc : c s = .ok a t) :
    t.stack.frames.length = s.stack.frames.length := by
  have hends := h s.stack.frames s (.refl hrefl _)
  rw [hc] at hends
  exact hends.length_eq

/-- **No activity starts another one too deep**: a call is refused when the limit is reached. -/
theorem Starts.shallow {m : Machine} {before after : Moment} (hstarts : Starts m before after)
    (h : before.Shallow m) : after.Shallow m := by
  have hreset (vars : List Var) (frames : List Frame) :
      Safe (AtFrames (fun _ => True) frames) AnyCause (vars.forM (setDefault m)) :=
    safe_forM vars fun v _ => safe_setDefault m frames v
  cases hstarts with
  | reset _ hdone => exact (Safe.frames_eq (hreset _) hdone).trans h
  | @group fuel f s s₁ t done rest g _ hdefaults hdone =>
    have hgroups := Safe.frames_eq (fun frames => safe_forM done fun group _ =>
      safe_runGroup m frames fuel group) hdone
    exact (hgroups.trans (Safe.frames_eq (hreset _) hdefaults)).trans h
  | @entry fuel f s s₁ t arguments hglobals hdefaults =>
    have hframes : t.stack.frames = [] :=
      ((Safe.frames_eq (fun frames => safe_defaultArguments m frames f) hdefaults).trans
        (Safe.frames_eq (fun frames => safe_runGlobals m frames fuel f.package) hglobals)).trans h
    show t.stack.frames.length ≤ _
    rw [hframes]
    exact Nat.zero_le _
  | @declarations fuel g s =>
    show s.stack.frames.length + 1 ≤ _
    rw [show s.stack.frames = [] from h]
    exact Nat.le_max_right _ _
  | @body fuel f arguments receiver file code result s t _ hdepth _ hresult =>
    cases hresult
    show s.stack.frames.length + 1 ≤ _
    rw [← s.stack.depth_eq]
    exact Nat.le_trans hdepth (Nat.le_max_left _ _)
  | stmt | expr => exact h
  | @next fuel code stmt frame jumped s t _ _ _ hdone =>
    have hexecute := safe_execute_within (m := m) (changing_stmt stmt) (leavesFrames_call m fuel)
      (fun _ _ => rfl) stmt
    show (t.stack.frames.modifyHead _).length ≤ _
    rw [List.length_modifyHead, Safe.length_frames (changing_stmt stmt).refl hexecute hdone]
    exact h
  | @operand fuel e operand done rest values s t _ hdone =>
    have hoperands := safe_evalAll_within (m := m) (changing_expr e) (leavesFrames_call m fuel) done
    exact (Safe.length_frames (changing_expr e).refl hoperands hdone).trans_le h
  | @function fuel f arguments span values s t hdone =>
    have hchanges := changing_expr (.call f arguments span)
    have hoperands := safe_evalAll_within (m := m) hchanges (leavesFrames_call m fuel) arguments
    exact (Safe.length_frames hchanges.refl hoperands hdone).trans_le h
  | @method fuel f receiver arguments span value values s s₁ t hreceiver hdone =>
    have hchanges := changing_expr (.methodCall f receiver arguments span)
    have hfirst := safe_eval_within (m := m) hchanges (leavesFrames_call m fuel) receiver
    have hoperands := safe_evalAll_within (m := m) hchanges (leavesFrames_call m fuel) arguments
    exact ((Safe.length_frames hchanges.refl hoperands hdone).trans
      (Safe.length_frames hchanges.refl hfirst hreceiver)).trans_le h

/-- All moments of a run are within the limit. -/
lemma Machine.Reaches.shallow {m : Machine} {fuel : Nat} {entry : FunctionSymbol} {sink : Sink}
    (h : m.Reaches fuel entry sink moment) : moment.Shallow m := by
  induction h with
  | refl => exact rfl
  | tail _ hstarts ih => exact hstarts.shallow ih

/-- **Calls are isolated.** Evaluating an expression, executing a statement, calling a function, or
whatever else a machine does, from any state: when it ends, with a value, a fault or an exit, there
are as many frames as before, and those below the innermost one are as they were. In the innermost
one an expression has changed the local variables at most, and a call nothing. In a run there are
never more frames than the limit of unfinished calls allows, or than the one that declarations run
in. -/
theorem activities_isolated (m : Machine) :
    (∀ fuel activity s, Ends AnyCause (Activity.Isolated activity s)
      (fun _ => Activity.Isolated activity s) (activity.run m fuel s)) ∧
    ∀ fuel entry sink moment, m.Reaches fuel entry sink moment →
      moment.state.stack.depth ≤ max m.mode.maxCallDepth 1 ∧
        Ends AnyCause (·.stack.depth ≤ max m.mode.maxCallDepth 1)
          (fun _ s => s.stack.depth ≤ max m.mode.maxCallDepth 1) (moment.ending m) := by
  refine ⟨Activity.ends_isolated m, fun fuel entry sink moment hreaches => ?_⟩
  have hstart := hreaches.shallow.length_le
  have within {t : State} (h : moment.activity.Isolated moment.state t) :
      t.stack.depth ≤ max m.mode.maxCallDepth 1 := by
    rw [t.stack.depth_eq, h.count]
    exact hstart
  refine ⟨?_, ?_⟩
  · rw [moment.state.stack.depth_eq]
    exact hstart
  · exact (Activity.ends_isolated m moment.fuel moment.activity moment.state).mono
      (fun _ => within) fun _ _ => within

/-- A function that calls itself without end. -/
def circling : FunctionSymbol :=
  ⟨⟨0⟩, "circle", "main", [], .void, none, .interpreted⟩

/-- A machine that runs it, where two calls may be unfinished. -/
def circlingMachine : Machine :=
  let body : Array Stmt := #[.expr (.call circling [] ⟨0, 8⟩)]
  ⟨⟨[⟨circling, some 0, .lowered body⟩], []⟩, .empty, { maxCallDepth := 2 }⟩

theorem activities_isolated_circling : ∃ moment, circlingMachine.Reaches 5 circling {} moment ∧
    moment.state.stack.depth = 2 ∧ moment.state.stack.depth ≤ max 2 1 := by
  have hcall : circlingMachine.Reaches 5 circling {} ⟨5, .call circling [] none, State.initial {}⟩ :=
    .single (.entry rfl rfl)
  have hcode := hcall.tail (.body rfl (by decide) rfl rfl)
  have hstmt := hcode.tail (.stmt rfl rfl rfl)
  have hexpr := hstmt.tail (.expr (List.mem_singleton_self _))
  have hagain := hexpr.tail (.function rfl)
  have hinner := hagain.tail (.body rfl (by decide) rfl rfl)
  exact ⟨_, hinner, rfl, ((activities_isolated circlingMachine).2 5 circling {} _ hinner).1⟩

end Parcel
