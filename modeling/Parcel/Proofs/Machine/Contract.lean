import Parcel.Proofs.Code.Program
import Parcel.Proofs.Machine.Code

/-!
# What runs of lowered code may rely on

A contract says which faults a run may end with, which variables of packages have a value, and how
functions may be called. Code is checked against it from its start to its end, with the local
variables that have a value there; at a label they are those that every jump to it brings along.
-/

namespace Parcel

open Code List

/-! ### Stores -/

namespace Store

variable {store : Store} {ids : List VarId} {id : VarId} {value : Value} {entry : VarId × Value}

lemma get?_set (store : Store) (id id' : VarId) (value : Value) :
    (store.set id value).get? id' = if id = id' then some value else store.get? id' := by
  induction store with
  | nil => simp [set, get?]
  | cons entry rest ih =>
    by_cases hset : entry.1 = id
    · by_cases heq : id = id' <;> simp [set, get?, hset, heq]
    · by_cases hentry : entry.1 = id'
      · have hne : id ≠ id' := fun h => hset (hentry.trans h.symm)
        rw [set, if_neg hset, get?, if_pos hentry, get?, if_pos hentry, if_neg hne]
      · simp [set, get?, hset, hentry, ih]

lemma get?_erase_of_ne (store : Store) {id id' : VarId} (h : id ≠ id') :
    (store.erase id).get? id' = store.get? id' := by
  induction store with
  | nil => rfl
  | cons entry rest ih =>
    by_cases hentry : entry.1 = id
    · simp [erase, get?, hentry, h]
    · simp [erase, get?, hentry, ih]

lemma mem_of_get? (h : store.get? id = some value) : (id, value) ∈ store := by
  induction store with
  | nil => cases h
  | cons entry rest ih =>
    rw [get?] at h
    split at h
    next hid =>
      obtain rfl := Option.some.inj h
      rw [← hid]
      exact mem_cons_self
    · exact mem_cons_of_mem _ (ih h)

lemma mem_of_mem_set (h : entry ∈ store.set id value) : entry = (id, value) ∨ entry ∈ store := by
  induction store with
  | nil => exact .inl (mem_singleton.mp h)
  | cons first rest ih =>
    rw [set] at h
    split at h
    · exact (mem_cons.mp h).imp_right (mem_cons_of_mem _)
    · rcases mem_cons.mp h with rfl | h
      · exact .inr mem_cons_self
      · exact (ih h).imp_right (mem_cons_of_mem _)

lemma erase_sublist (store : Store) (id : VarId) : (store.erase id).Sublist store := by
  induction store with
  | nil => exact .slnil
  | cons entry rest ih =>
    by_cases hentry : entry.1 = id
    · rw [erase, if_pos hentry]
      exact sublist_cons_self entry rest
    · rw [erase, if_neg hentry]
      exact ih.cons_cons entry

/-- These variables have a value. -/
def Has (store : Store) (ids : List VarId) : Prop :=
  ∀ id ∈ ids, (store.get? id).isSome = true

lemma Has.of_subset {ids' : List VarId} (h : store.Has ids) (hsub : ids' ⊆ ids) :
    store.Has ids' :=
  fun id hid => h id (hsub hid)

lemma Has.set (h : store.Has ids) (id : VarId) (value : Value) :
    (store.set id value).Has (id :: ids) := by
  intro id' hid
  rw [get?_set]
  split
  · rfl
  next hne => exact h id' ((mem_cons.mp hid).resolve_left fun heq => hne heq.symm)

lemma Has.erase (h : store.Has ids) (id : VarId) :
    (store.erase id).Has (ids.filter (· ≠ id)) := by
  intro id' hid
  obtain ⟨hmem, hne⟩ := mem_filter.mp hid
  rw [get?_erase_of_ne store fun heq => of_decide_eq_true hne heq.symm]
  exact h id' hmem

end Store

/-! ### Contracts -/

/-- What a run may rely on and what it may not do. -/
structure Contract where
  /-- The faults that it may end with. -/
  allowed : FaultCause → Prop
  /-- The variables of packages that have a value. -/
  globals : List VarId
  /-- How functions may be called, by the number of arguments. -/
  callable : FunctionSymbol → Nat → Prop

namespace Contract

variable (c : Contract)

variable {atLabel : Label → List VarId} {present : List VarId} {code : List Stmt}

/-- An expression may touch this where some local variables have a value. -/
def Permits (present : List VarId) : Access → Prop
  | .read v => v.id ∈ (if v.isGlobal then c.globals else present) ∨
    c.allowed (.unresolvedVariable v.name)
  | .write _ => True
  | .call f count => c.callable f count

/-- Code keeps to the contract from a point where some local variables have a value; `atLabel` gives
those of each label. -/
def Checks (atLabel : Label → List VarId) : List VarId → List Stmt → Prop
  | _, [] => True
  | present, stmt :: rest => (∀ a ∈ stmt.ownAccesses, c.Permits present a) ∧
    match stmt with
    | .declare v _ => Checks atLabel (if v.isGlobal then present else v.id :: present) rest
    | .label l => atLabel l ⊆ present ∧ Checks atLabel (atLabel l) rest
    | .goto l | .gotoIf _ l => atLabel l ⊆ present ∧ Checks atLabel present rest
    | .delete v => Checks atLabel (present.filter (· ≠ v.id)) rest
    | _ => Checks atLabel present rest

variable {c}

lemma Checks.exists_drop (h : c.Checks atLabel present code) (p : Nat) :
    ∃ present', c.Checks atLabel present' (code.drop p) := by
  induction p generalizing present code with
  | zero => exact ⟨present, h⟩
  | succ p ih =>
    cases code with
    | nil => exact ⟨present, trivial⟩
    | cons stmt =>
      rw [drop_succ_cons]
      obtain ⟨-, h⟩ := h
      cases stmt with
      | label l | goto l | gotoIf condition l => exact ih h.2
      | _ => exact ih h

lemma Checks.at_label (h : c.Checks atLabel present code) {p : Nat} {label : Label}
    (hp : code[p]? = some (.label label)) : c.Checks atLabel (atLabel label) (code.drop p) := by
  obtain ⟨present', hdrop⟩ := h.exists_drop p
  obtain ⟨hlt, heq⟩ := List.getElem?_eq_some_iff.mp hp
  rw [drop_eq_getElem_cons hlt, heq] at hdrop ⊢
  exact ⟨fun a ha => (nomatch ha), List.Subset.refl _, hdrop.2.2⟩

end Contract

/-! ### Frames -/

/-- The innermost frame has a property, those below it are given. -/
def InFrame (Q : Frame → Prop) (G : Store → Prop) (tail : List Frame) (s : State) : Prop :=
  ∃ frame, s.stack.frames = frame :: tail ∧ Q frame ∧ G s.globals

section Frames

variable {allowed : FaultCause → Prop} {Q Q' : Frame → Prop} {G : Store → Prop}
  {tail : List Frame} {touches : Access → Prop}

lemma InFrame.above {s : State} (h : InFrame Q G tail s) : AboveFrames G tail s := by
  obtain ⟨frame, hframes, -, hG⟩ := h
  exact ⟨by rw [hframes, tail_cons], hG⟩

lemma frames_modifyTop {s : State} {frame : Frame} (h : s.stack.frames = frame :: tail)
    (f : Frame → Frame) : (s.onStack (·.modifyTop f)).stack.frames = f frame :: tail := by
  show s.stack.frames.modifyHead f = _
  rw [h, modifyHead_cons]

lemma triple_modifyFrame {E : State → Prop} {f : Frame → Frame}
    (h : ∀ frame, Q frame → Q' (f frame)) :
    Triple allowed E (InFrame Q G tail) (Exec.modifyFrame f) fun _ => InFrame Q' G tail := by
  rintro s ⟨frame, hframes, hQ, hG⟩
  exact ⟨f frame, frames_modifyTop hframes f, h frame hQ, hG⟩

lemma triple_storeVar {E : State → Prop} {v : Var} (value : Value)
    (hQ : v.isGlobal = false → ∀ frame, Q frame →
      Q' { frame with locals := frame.locals.set v.id value })
    (hglobal : v.isGlobal = true → ∀ frame, Q frame → Q' frame)
    (hG : v.isGlobal = true → ∀ globals, G globals → G (globals.set v.id value)) :
    Triple allowed E (InFrame Q G tail) (storeVar v value) fun _ => InFrame Q' G tail := by
  rintro s ⟨frame, hframes, hframe, hs⟩
  rw [storeVar_holds (holds_of_frames hframes v), State.assign]
  cases hv : v.isGlobal with
  | true => exact ⟨frame, hframes, hglobal hv frame hframe, hG hv _ hs⟩
  | false => exact ⟨_, frames_modifyTop hframes _, hQ hv frame hframe, hs⟩

lemma kept_inFrame
    (hQ : ∀ v value, touches (.write v) → v.isGlobal = false → ∀ frame, Q frame →
      Q { frame with locals := frame.locals.set v.id value })
    (hG : ∀ v value, touches (.write v) → v.isGlobal = true → ∀ globals, G globals →
      G (globals.set v.id value))
    (hread : ∀ frame globals v, Q frame → G globals → touches (.read v) →
      (if v.isGlobal then globals.get? v.id else frame.locals.get? v.id) = none →
        allowed (.unresolvedVariable v.name))
    (hop : ∀ cause : FaultCause, cause.ofOperation = true → allowed cause) :
    Kept (InFrame Q G tail) touches allowed where
  setHeap _ h := h
  setSink _ h := h
  addRecovered _ h := h
  read := by
    rintro s v ⟨frame, hframes, hframe, hs⟩ hv hnone
    refine hread frame s.globals v hframe hs hv ?_
    rwa [State.value?, top?_of_frames hframes, Option.bind_some] at hnone
  write := by
    intro s v value hs hv
    obtain ⟨frame, hframes, -, -⟩ := id hs
    have hholds := holds_of_frames hframes v
    refine ⟨fun hnot => absurd (hholds.symm.trans hnot) Bool.noConfusion, fun _ => ?_⟩
    have hstore : Triple allowed (fun _ => True) (InFrame Q G tail) (Parcel.storeVar v value)
        fun _ => InFrame Q G tail :=
      triple_storeVar value (hQ v value hv) (fun _ _ h => h) (hG v value hv)
    have hends := hstore s hs
    rwa [storeVar_holds hholds] at hends
  ofOperation := hop

end Frames

/-! ### Steps -/

lemma label_mem_of_placed {body : Body} (h : body.Runnable) {label : Label}
    (hlabel : label ∈ body.placed) : Stmt.label label ∈ body.stmts := by
  obtain ⟨stmt, hmem, hown⟩ := mem_flatMap.mp hlabel
  have hlow := h.stmts stmt hmem
  cases stmt with
  | label => exact mem_singleton.mp hown ▸ hmem
  | declare | ret | expr | goto | gotoIf | delete | approach => cases hown
  | block | ifElse | whileLoop | forLoop | fromTo | loop => cases hlow

namespace Contract

/-- A frame in which code can go on from a position. -/
structure Ready (c : Contract) (code : Array Stmt) (atLabel : Label → List VarId) (p : Nat)
    (frame : Frame) : Prop where
  labels : frame.labels = labelPositions code
  checks : ∃ present, c.Checks atLabel present (code.toList.drop p) ∧ frame.locals.Has present

/-- The variables of packages that a contract names have a value. -/
def Globals (c : Contract) (globals : Store) : Prop :=
  globals.Has c.globals

/-- Calls that the contract permits keep to it. -/
def Invokes (c : Contract) (invoke : Invoke) : Prop :=
  ∀ f arguments receiver frames, c.callable f arguments.length →
    Safe (AtFrames c.Globals frames) c.allowed (invoke f arguments receiver)

section Steps

variable {c : Contract} {m : Machine} {code : Array Stmt} {atLabel : Label → List VarId}
  {tail : List Frame} {present : List VarId}

/-- The frame of a body in which some variables have a value. -/
def Holds (code : Array Stmt) (present : List VarId) (frame : Frame) : Prop :=
  frame.labels = labelPositions code ∧ frame.locals.Has present

lemma kept_holds (hop : ∀ cause : FaultCause, cause.ofOperation = true → c.allowed cause) :
    Kept (InFrame (Holds code present) c.Globals tail) (c.Permits present) c.allowed := by
  refine kept_inFrame ?_ ?_ ?_ hop
  · rintro v value - - frame ⟨hlabels, hhas⟩
    exact ⟨hlabels, (hhas.set v.id value).of_subset (subset_cons_self _ _)⟩
  · rintro v value - - globals hglobals
    exact (hglobals.set v.id value).of_subset (subset_cons_self _ _)
  · rintro frame globals v ⟨-, hhas⟩ hglobals hread hnone
    refine hread.resolve_left fun hmem => ?_
    cases hv : v.isGlobal with
    | true =>
      rw [hv, if_pos rfl] at hmem hnone
      exact absurd (hglobals v.id hmem) (by rw [hnone]; exact Bool.false_ne_true)
    | false =>
      rw [hv, if_neg Bool.false_ne_true] at hmem hnone
      exact absurd (hhas v.id hmem) (by rw [hnone]; exact Bool.false_ne_true)

lemma triple_jump (hcode : (Body.lowered code).Runnable) {start : List VarId}
    (hcheck : c.Checks atLabel start code.toList) {label : Label}
    (hlabel : label ∈ (Body.lowered code).placed) (hsub : atLabel label ⊆ present) :
    Triple c.allowed (AboveFrames c.Globals tail)
      (InFrame (Holds code present) c.Globals tail) (jump label) fun q =>
        InFrame (c.Ready code atLabel q) c.Globals tail := by
  rintro s ⟨frame, hframes, ⟨hlabels, hhas⟩, hG⟩
  obtain ⟨q, hq, hposition⟩ := position_of_label (label_mem_of_placed hcode hlabel)
  have hfound : s.stack.top?.bind (·.position? label) = some q := by
    rw [top?_of_frames hframes, Option.bind_some, Frame.position?, hlabels, hposition]
  rw [jump, exec_bind_ok (get_run s), hfound]
  refine ⟨frame, hframes, ⟨hlabels, atLabel label, hcheck.at_label ?_, hhas.of_subset hsub⟩, hG⟩
  rwa [Array.getElem?_toList]

lemma triple_declare {v : Var} {p : Nat} (value : Value) (hnext : c.Checks atLabel
      (if v.isGlobal then present else v.id :: present) (code.toList.drop p)) :
    Triple c.allowed (AboveFrames c.Globals tail) (InFrame (Holds code present) c.Globals tail)
      (storeVar v value) fun _ => InFrame (c.Ready code atLabel p) c.Globals tail := by
  refine triple_storeVar value ?_ ?_ ?_
  · rintro hv frame ⟨hlabels, hhas⟩
    rw [hv, if_neg Bool.false_ne_true] at hnext
    exact ⟨hlabels, _, hnext, hhas.set v.id value⟩
  · rintro hv frame ⟨hlabels, hhas⟩
    rw [hv, if_pos rfl] at hnext
    exact ⟨hlabels, present, hnext, hhas⟩
  · rintro hv globals hglobals
    exact (hglobals.set v.id value).of_subset (subset_cons_self _ _)

/-- **One step** of checked code: the frame is ready for the position at which the run goes on. -/
theorem triple_step (hop : ∀ cause : FaultCause, cause.ofOperation = true → c.allowed cause)
    (hcode : (Body.lowered code).Runnable) {start : List VarId}
    (hcheck : c.Checks atLabel start code.toList) {p : Nat} {stmt : Stmt}
    (hstmt : code[p]? = some stmt) {invoke : Invoke} (hinvoke : c.Invokes invoke) :
    Triple c.allowed (AboveFrames c.Globals tail)
      (InFrame (c.Ready code atLabel p) c.Globals tail) (execute m invoke stmt) fun jumped =>
        InFrame (c.Ready code atLabel (jumped.getD (p + 1))) c.Globals tail := by
  rintro s ⟨frame, hframes, ⟨hlabels, present, hdrop, hhas⟩, hG⟩
  have hhere : InFrame (Holds code present) c.Globals tail s :=
    ⟨frame, hframes, ⟨hlabels, hhas⟩, hG⟩
  obtain ⟨hlt, hget⟩ := Array.getElem?_eq_some_iff.mp hstmt
  have hmem : stmt ∈ code.toList := hget ▸ Array.getElem_mem_toList hlt
  rw [drop_eq_getElem_cons hlt, Array.getElem_toList, hget] at hdrop
  obtain ⟨haccesses, hnext⟩ := hdrop
  refine triple_execute (kept_holds hop) (fun _ => InFrame.above) ?_ haccesses ?_ ?_ ?_ ?_ ?_ ?_ s hhere
  · exact fun f arguments receiver hf => safe_of_atFrames
      (fun frames => hinvoke f arguments receiver frames hf) (fun _ ⟨_, _, _, h⟩ => h)
      fun _ _ ⟨frame, hframes, hframe, _⟩ hsame h => ⟨frame, hsame.trans hframes, hframe, h⟩
  · rintro v initializer rfl value
    exact triple_declare value hnext
  · rintro value rfl result
    exact triple_modifyFrame fun frame hframe => ⟨hframe.1, present, hnext, hframe.2⟩
  · rintro v rfl
    exact triple_modifyFrame fun frame hframe => ⟨hframe.1, _, hnext, hframe.2.erase v.id⟩
  · intro label hlabel
    refine triple_jump hcode hcheck (hcode.targets label (mem_flatMap.mpr ⟨stmt, hmem, hlabel⟩)) ?_
    cases stmt with
    | goto l | gotoIf condition l => exact mem_singleton.mp hlabel ▸ hnext.1
    | _ => cases hlabel
  · rintro hnone t ⟨frame, hframes, ⟨hlabels, hhas⟩, hG⟩
    obtain ⟨present', hsub, hrest⟩ : ∃ present', present' ⊆ present ∧
        c.Checks atLabel present' (code.toList.drop (p + 1)) := by
      cases stmt with
      | declare => cases hnone
      | label => exact ⟨_, hnext⟩
      | goto | gotoIf => exact ⟨present, List.Subset.refl _, hnext.2⟩
      | delete => exact ⟨_, filter_sublist.subset, hnext⟩
      | _ => exact ⟨present, List.Subset.refl _, hnext⟩
    exact ⟨frame, hframes, ⟨hlabels, present', hrest, hhas.of_subset hsub⟩, hG⟩
  · exact fun hlow => absurd ((hcode.stmts _ hmem).symm.trans hlow) Bool.noConfusion

end Steps

/-! ### Runs -/

/-- Every function that may be called, and every declaration of a variable of a package, keeps to
the contract. -/
structure Honoured (c : Contract) (m : Machine) : Prop where
  ofOperation : ∀ cause : FaultCause, cause.ofOperation = true → c.allowed cause
  stackOverflow : c.allowed (.stackOverflow m.mode.maxCallDepth)
  missing : ∀ f count cause, c.callable f count → f.kind = .interpreted →
    codeOf m.program f = .error cause → c.allowed cause
  bodies : ∀ f count file code, c.callable f count → f.kind = .interpreted →
    codeOf m.program f = .ok (file, code) → (Body.lowered code).Runnable ∧
      ∃ atLabel, c.Checks atLabel ((f.params.take count).map (·.id)) code.toList
  groups : ∀ group ∈ m.program.globals, (Body.lowered group.stmts.toArray).Runnable ∧
    ∃ atLabel, c.Checks atLabel [] group.stmts
  globals : ∀ id ∈ c.globals, id ∈ (m.program.globals.flatMap declaredVars).map (·.id)

section Runs

variable {c : Contract} {m : Machine} {code : Array Stmt} {atLabel : Label → List VarId}
  {tail : List Frame}

/-- **A whole run of code** keeps to the contract if the calls in it do. -/
theorem triple_runCode (hop : ∀ cause : FaultCause, cause.ofOperation = true → c.allowed cause)
    (hcode : (Body.lowered code).Runnable) {start : List VarId}
    (hcheck : c.Checks atLabel start code.toList) (fuel : Nat)
    (hinvoke : ∀ k < fuel, c.Invokes (call m k)) :
    Triple c.allowed (AboveFrames c.Globals tail)
      (InFrame (fun frame => c.Ready code atLabel frame.position frame) c.Globals tail)
      (runCode m fuel code) fun _ => AboveFrames c.Globals tail := by
  induction fuel with
  | zero => exact fun s _ => trivial
  | succ fuel ih =>
    rintro s ⟨frame, hframes, hready, hG⟩
    cases hreturned : frame.returned with
    | true =>
      rw [runCode_returned hframes hreturned]
      exact InFrame.above ⟨frame, hframes, hready, hG⟩
    | false =>
      cases hstmt : code[frame.position]? with
      | none =>
        rw [runCode_end hframes hreturned hstmt]
        exact InFrame.above ⟨frame, hframes, hready, hG⟩
      | some =>
        rw [runCode_step hframes hreturned hstmt]
        have hcalls := hinvoke fuel (Nat.lt_succ_self fuel)
        refine Triple.bind (triple_step hop hcode hcheck hstmt hcalls) (fun jumped => ?_) s
          ⟨frame, hframes, hready, hG⟩
        have hmove : Triple c.allowed (AboveFrames c.Globals tail)
            (InFrame (c.Ready code atLabel (jumped.getD (frame.position + 1))) c.Globals tail)
            (Exec.modifyFrame fun f => { f with position := jumped.getD (frame.position + 1) })
            fun _ => InFrame (fun f => c.Ready code atLabel f.position f) c.Globals tail :=
          triple_modifyFrame fun f hf => ⟨hf.labels, hf.checks⟩
        exact Triple.bind hmove fun _ => ih fun k hk => hinvoke k (Nat.lt_succ_of_lt hk)

end Runs

lemma has_foldl_zip (params : List Var) (arguments : List Value) {store : Store}
    (ids : List VarId) (hstore : store.Has ids) :
    ((params.zip arguments).foldl (fun store (v, value) => store.set v.id value) store).Has
      (ids ++ (params.take arguments.length).map (·.id)) := by
  induction params generalizing arguments store ids with
  | nil =>
    rw [zip_nil_left, take_nil, map_nil, append_nil]
    exact hstore
  | cons v params ih =>
    cases arguments with
    | nil =>
      rw [zip_nil_right, length_nil, take_zero, map_nil, append_nil]
      exact hstore
    | cons value arguments =>
      refine (ih arguments _ (hstore.set v.id value)).of_subset fun id hid => ?_
      simp only [length_cons, take_succ_cons, map_cons, mem_append,
        mem_cons] at hid ⊢
      tauto

lemma has_bindParams (params : List Var) (arguments : List Value) :
    (bindParams params arguments).Has ((params.take arguments.length).map (·.id)) :=
  has_foldl_zip params arguments [] fun _ hid => nomatch hid

/-- The variables of packages have a value once they have their default ones. -/
lemma triple_setDefaults {c : Contract} {m : Machine} (vars : List Var) (ids : List VarId) :
    Triple c.allowed (fun _ => True) (AtFrames (Store.Has · ids) [])
      (vars.forM (setDefault m)) fun _ => AtFrames (Store.Has · (ids ++ vars.map (·.id))) [] := by
  induction vars generalizing ids with
  | nil =>
    rw [map_nil, append_nil]
    exact triple_pure fun _ hs => hs
  | cons v vars ih =>
    refine Triple.bind (M := fun _ => AtFrames (Store.Has · (v.id :: ids)) []) ?_ fun _ s hs => ?_
    · rintro s ⟨hframes, hhas⟩
      exact ⟨hframes, hhas.set v.id _⟩
    · refine (ih (v.id :: ids) s hs).mono (fun _ h => h) fun _ s' hs' => ⟨hs'.1, ?_⟩
      refine hs'.2.of_subset fun id hid => ?_
      simp only [map_cons, mem_append, mem_cons] at hid ⊢
      tauto

namespace Honoured

variable {c : Contract} {m : Machine} (h : c.Honoured m)
include h

/-- **Calls** that the contract permits keep to it. -/
theorem invokes_call (fuel : Nat) : c.Invokes (call m fuel) := by
  induction fuel using Nat.strongRecOn with
  | ind fuel ih =>
    intro f arguments receiver frames hf
    refine safe_callWith h.ofOperation h.stackOverflow
      (fun hkind cause => h.missing f _ cause hf hkind) (fun hkind file code hfound result => ?_)
      receiver
    obtain ⟨hcode, atLabel, hcheck⟩ := h.bodies f _ file code hf hkind hfound
    rintro s ⟨hframes, hG⟩
    refine triple_runCode h.ofOperation hcode hcheck fuel ih s ⟨_, hframes, ?_, hG⟩
    exact ⟨rfl, _, hcheck, has_bindParams f.params arguments⟩

lemma safe_runGroup (fuel : Nat) {group : GlobalGroup} (hgroup : group ∈ m.program.globals) :
    Safe (AtFrames c.Globals []) c.allowed (runGroup m fuel group) := by
  obtain ⟨hcode, atLabel, hcheck⟩ := h.groups group hgroup
  refine Triple.bind (triple_withFrame ?_) fun _ => triple_pure fun _ hs => hs
  rintro s ⟨hframes, hG⟩
  refine triple_runCode h.ofOperation hcode hcheck fuel (fun k _ => h.invokes_call k) s
    ⟨_, hframes, ?_, hG⟩
  exact ⟨rfl, [], hcheck, fun id hid => nomatch hid⟩

lemma ends_runEntry {entry : FunctionSymbol} (hentry : c.callable entry entry.params.length)
    (fuel : Nat) (sink : Sink) :
    Ends c.allowed (fun _ => True) (fun _ _ => True)
      (runEntry m fuel entry (State.initial sink)) := by
  have kept : Kept (AtFrames c.Globals []) (fun _ => False) c.allowed :=
    kept_atFrames c.Globals [] h.ofOperation
  have hglobals : Triple c.allowed (fun _ => True) (AtFrames (Store.Has · []) [])
      (runGlobals m fuel entry.package) fun _ => AtFrames c.Globals [] := by
    refine Triple.bind (triple_setDefaults _ []) fun _ s hs => ?_
    have hgroups : Safe (AtFrames c.Globals []) c.allowed
        ((initOrder m.catalog entry.package m.program.globals).forM fun package =>
          (m.program.globals.filter (·.package = package)).forM (runGroup m fuel)) :=
      safe_forM _ fun package _ => safe_forM _ fun group hgroup =>
        h.safe_runGroup fuel (mem_of_mem_filter hgroup)
    exact (hgroups s ⟨hs.1, hs.2.of_subset h.globals⟩).mono (fun _ _ => trivial) fun _ _ hs => hs
  refine Triple.bind hglobals (fun _ => ?_) (State.initial sink)
    ⟨rfl, fun _ hid => nomatch hid⟩
  have harguments := triple_mapM entry.params fun v (_ : v ∈ entry.params) =>
    kept.onHeap (·.default m.catalog v.type)
  intro s hs
  refine Ends.mono (E := AtFrames c.Globals []) (J := fun _ => AtFrames c.Globals []) ?_
    (fun _ _ => trivial) fun _ _ _ => trivial
  refine Triple.bind harguments (fun arguments s hs => ?_) s hs
  refine h.invokes_call fuel entry arguments none [] ?_ s hs.2
  rwa [hs.1]

/-- **A run of a program** that keeps to the contract fails with a fault that is allowed, if it
fails. -/
theorem allowed_of_runFor {entry : FunctionSymbol}
    (hentry : c.callable entry entry.params.length) {fuel : Nat} {sink : Sink} {f : Fault}
    (hf : (runFor m fuel entry sink).1 = .failed f) : c.allowed f.cause := by
  have hends := h.ends_runEntry hentry fuel sink
  unfold runFor at hf
  generalize runEntry m fuel entry (State.initial sink) = result at hends hf
  match result with
  | .ok value s => cases hf
  | .error .outOfFuel s => cases hf
  | .error (.fault ⟨cause, origin⟩) s =>
    cases cause with
    | exit => cases hf
    | _ =>
      cases hf
      exact hends.1

end Honoured

end Contract

end Parcel
