import Parcel.Proofs.Machine.Congruence

/-!
# Runs under a renaming

A machine whose program has other ids does the same: the states of its runs differ only in the ids
of variables and in where labels are noted. The values, the faults and the output are equal.
-/

namespace Parcel

open Code

/-! ### Variables -/

/-- The variables under new ids. -/
def Store.rename (ρ : Renaming) (store : Store) : Store :=
  store.map fun entry => (⟨ρ.var entry.1.index⟩, entry.2)

section Stores

variable (ρ : Renaming) (store : Store)

lemma varId_rename_inj {a b : VarId} : VarId.mk (ρ.var a.index) = ⟨ρ.var b.index⟩ ↔ a = b := by
  obtain ⟨a⟩ := a
  obtain ⟨b⟩ := b
  rw [VarId.mk.injEq, VarId.mk.injEq]
  exact ρ.var.injective.eq_iff

lemma Store.get?_rename (v : Var) :
    Store.get? (Store.rename ρ store) (v.rename ρ).id = Store.get? store v.id := by
  induction store with
  | nil => rfl
  | cons entry store ih =>
    show (if VarId.mk (ρ.var entry.1.index) = ⟨ρ.var v.id.index⟩ then some entry.2
      else Store.get? (Store.rename ρ store) (v.rename ρ).id) = _
    rw [ih, Store.get?]
    simp only [varId_rename_inj]

lemma Store.set_rename (v : Var) (value : Value) :
    Store.set (Store.rename ρ store) (v.rename ρ).id value =
      Store.rename ρ (Store.set store v.id value) := by
  induction store with
  | nil => rfl
  | cons entry store ih =>
    show (if VarId.mk (ρ.var entry.1.index) = ⟨ρ.var v.id.index⟩ then
      ((v.rename ρ).id, value) :: Store.rename ρ store
      else _ :: Store.set (Store.rename ρ store) (v.rename ρ).id value) = _
    rw [ih, Store.set]
    simp only [varId_rename_inj]
    split <;> rfl

lemma Store.erase_rename (v : Var) :
    Store.erase (Store.rename ρ store) (v.rename ρ).id =
      Store.rename ρ (Store.erase store v.id) := by
  induction store with
  | nil => rfl
  | cons entry store ih =>
    show (if VarId.mk (ρ.var entry.1.index) = ⟨ρ.var v.id.index⟩ then Store.rename ρ store
      else _ :: Store.erase (Store.rename ρ store) (v.rename ρ).id) = _
    rw [ih, Store.erase]
    simp only [varId_rename_inj]
    split <;> rfl

lemma bindParams_rename (params : List Var) (arguments : List Value) :
    bindParams (params.map (·.rename ρ)) arguments =
      Store.rename ρ (bindParams params arguments) := by
  have hfold : ∀ (bound : List (Var × Value)) (store : Store),
      (bound.map fun entry => (entry.1.rename ρ, entry.2)).foldl
        (fun store entry => Store.set store entry.1.id entry.2) (Store.rename ρ store) =
      Store.rename ρ (bound.foldl (fun store entry => Store.set store entry.1.id entry.2) store) := by
    intro bound
    induction bound with
    | nil => exact fun _ => rfl
    | cons entry bound ih =>
      intro store
      rw [List.map_cons, List.foldl_cons, List.foldl_cons, Store.set_rename]
      exact ih _
  have hzip : (params.map (·.rename ρ)).zip arguments =
      (params.zip arguments).map fun entry => (entry.1.rename ρ, entry.2) := by
    rw [List.zip_map_left]
    rfl
  rw [bindParams, bindParams, hzip]
  exact hfold (params.zip arguments) []

/-! ### Labels -/

/-- The positions are those of the labels under their new ids. -/
def LabelPositions.Renamed (positions positions' : LabelPositions) : Prop :=
  ∀ label : Label, positions'[(label.rename ρ).index]? = positions[label.index]?

lemma LabelPositions.Renamed.note {positions positions' : LabelPositions}
    (h : positions.Renamed ρ positions') (stmt : Stmt) (position : Nat) :
    (positions.note (stmt, position)).Renamed ρ (positions'.note (stmt.rename ρ, position)) := by
  cases stmt with
  | label label =>
    intro other
    show (positions'.insert (label.rename ρ).index position)[(other.rename ρ).index]? =
      (positions.insert label.index position)[other.index]?
    have hsame : (label.rename ρ).index = (other.rename ρ).index ↔ label.index = other.index :=
      ρ.label.injective.eq_iff
    simp only [Std.TreeMap.getElem?_insert, Nat.compare_eq_eq, hsame, h other]
  | ifElse condition first second => cases second <;> exact h
  | _ => exact h

/-- **Labels are found at the same positions** under new ids. -/
theorem renamed_labelPositions (code : Array Stmt) :
    (labelPositions code).Renamed ρ (labelPositions (code.map (·.rename ρ))) := by
  have hfold : ∀ (stmts : List (Stmt × Nat)) (positions positions' : LabelPositions),
      positions.Renamed ρ positions' → (stmts.foldl LabelPositions.note positions).Renamed ρ
        ((stmts.map fun entry => (entry.1.rename ρ, entry.2)).foldl LabelPositions.note
          positions') := by
    intro stmts
    induction stmts with
    | nil => exact fun _ _ h => h
    | cons entry stmts ih => exact fun _ _ h => ih _ _ (h.note ρ entry.1 entry.2)
  have hcode : (code.map (·.rename ρ)).toList.zipIdx =
      code.toList.zipIdx.map fun entry => (entry.1.rename ρ, entry.2) := by
    rw [Array.toList_map, List.zipIdx_map]
    rfl
  rw [labelPositions, labelPositions, hcode]
  exact hfold _ _ _ fun _ => rfl

end Stores

/-! ### States -/

/-- The frames differ in the ids of variables and of labels alone. -/
inductive Frame.Renamed (ρ : Renaming) : Frame → Frame → Prop
  | mk (frame : Frame) {labels : LabelPositions} (h : frame.labels.Renamed ρ labels) :
    Renamed ρ frame { frame with locals := Store.rename ρ frame.locals, labels }

/-- The states differ in the ids of variables and of labels alone. -/
structure State.Renamed (ρ : Renaming) (s t : State) : Prop where
  globals : t.globals = Store.rename ρ s.globals
  heap : t.heap = s.heap
  frames : List.Forall₂ (Frame.Renamed ρ) s.stack.frames t.stack.frames
  recovered : t.recovered = s.recovered
  sink : t.sink = s.sink

namespace State.Renamed

variable {ρ : Renaming} {s t : State}

lemma initial (ρ : Renaming) (sink : Sink) :
    (State.initial sink).Renamed ρ (State.initial sink) :=
  ⟨rfl, rfl, .nil, rfl, rfl⟩

/-- The innermost frames, if there are any. -/
lemma top? (h : s.Renamed ρ t) : (s.stack.top? = none ∧ t.stack.top? = none) ∨
    ∃ (frame : Frame) (labels : LabelPositions), frame.labels.Renamed ρ labels ∧
      s.stack.top? = some frame ∧
      t.stack.top? = some { frame with locals := Store.rename ρ frame.locals, labels } := by
  have hframes := h.frames
  unfold Stack.top?
  generalize s.stack.frames = frames at hframes ⊢
  generalize t.stack.frames = frames' at hframes ⊢
  cases hframes with
  | nil => exact .inl ⟨rfl, rfl⟩
  | cons hframe _ =>
    cases hframe with
    | mk hlabels => exact .inr ⟨_, _, hlabels, rfl, rfl⟩

lemma sameView (h : s.Renamed ρ t) : SameView s t := by
  have hdepth : s.stack.depth = t.stack.depth := by
    rw [s.stack.depth_eq, t.stack.depth_eq, h.frames.length_eq]
  rcases h.top? with ⟨hs, ht⟩ | ⟨frame, labels, -, hs, ht⟩
  · exact ⟨h.heap.symm, by rw [State.file, State.file, hs, ht], hdepth, by rw [hs, ht],
      by rw [State.cursor?, State.cursor?, hs, ht]⟩
  · exact ⟨h.heap.symm, by rw [State.file, State.file, hs, ht]; rfl, hdepth,
      by rw [hs, ht]; rfl, by rw [State.cursor?, State.cursor?, hs, ht]; rfl⟩

lemma onStack (h : s.Renamed ρ t) {f g : Stack → Stack}
    (hframes : List.Forall₂ (Frame.Renamed ρ) (f s.stack).frames (g t.stack).frames) :
    (s.onStack f).Renamed ρ (t.onStack g) :=
  ⟨h.globals, h.heap, hframes, h.recovered, h.sink⟩

lemma push (h : s.Renamed ρ t) {frame frame' : Frame} (hframe : frame.Renamed ρ frame') :
    (s.onStack (·.push frame)).Renamed ρ (t.onStack (·.push frame')) :=
  h.onStack (.cons hframe h.frames)

lemma pop (h : s.Renamed ρ t) : (s.onStack Stack.pop).Renamed ρ (t.onStack Stack.pop) := by
  refine h.onStack ?_
  have hframes := h.frames
  show List.Forall₂ _ s.stack.frames.tail t.stack.frames.tail
  generalize s.stack.frames = frames at hframes ⊢
  generalize t.stack.frames = frames' at hframes ⊢
  cases hframes with
  | nil => exact .nil
  | cons _ htail => exact htail

lemma modifyTop (h : s.Renamed ρ t) {change change' : Frame → Frame}
    (hchange : ∀ frame frame', Frame.Renamed ρ frame frame' →
      (change frame).Renamed ρ (change' frame')) :
    (s.onStack (·.modifyTop change)).Renamed ρ (t.onStack (·.modifyTop change')) := by
  refine h.onStack ?_
  have hframes := h.frames
  show List.Forall₂ _ (s.stack.frames.modifyHead change) (t.stack.frames.modifyHead change')
  generalize s.stack.frames = frames at hframes ⊢
  generalize t.stack.frames = frames' at hframes ⊢
  cases hframes with
  | nil => exact .nil
  | cons hframe htail => exact .cons (hchange _ _ hframe) htail

end State.Renamed

/-! ### Computations -/

/-- The results differ in ids alone: in those of the states, and in the label that was not found if
they are a fault for that. -/
inductive RenamedResult (ρ : Renaming) {α : Type} :
    Exec.Result α → Exec.Result α → Prop
  | ok (a : α) {s t : State} (h : s.Renamed ρ t) : RenamedResult ρ (.ok a s) (.ok a t)
  | error (halt : Halt) {s t : State} (h : s.Renamed ρ t) :
    RenamedResult ρ (.error halt s) (.error halt t)
  | unresolved (label label' : Label) (place : Option Place) {s t : State} (h : s.Renamed ρ t) :
    RenamedResult ρ (.error (.fault ⟨.unresolvedLabel label, place⟩) s)
      (.error (.fault ⟨.unresolvedLabel label', place⟩) t)

/-- The second computation does under new ids what the first one does. -/
def Reruns (ρ : Renaming) {α : Type} (c c' : Exec α) : Prop :=
  ∀ s t : State, s.Renamed ρ t → RenamedResult ρ (c s) (c' t)

section Rules

variable {ρ : Renaming} {α β : Type}

lemma Reruns.bind {c c' : Exec α} {next next' : α → Exec β} (hc : Reruns ρ c c')
    (hnext : ∀ a, Reruns ρ (next a) (next' a)) : Reruns ρ (c >>= next) (c' >>= next') := by
  intro s t hst
  have h := hc s t hst
  generalize hresult : c s = result at h
  generalize hresult' : c' t = result' at h
  cases h with
  | ok a h =>
    rw [exec_bind_ok hresult, exec_bind_ok hresult']
    exact hnext a _ _ h
  | error halt h =>
    rw [exec_bind_error hresult, exec_bind_error hresult']
    exact .error halt h
  | unresolved label label' place h =>
    rw [exec_bind_error hresult, exec_bind_error hresult']
    exact .unresolved label label' place h

/-- A fault gets the same place. -/
lemma Reruns.placing {c c' : Exec α} (span : Span) (h : Reruns ρ c c') :
    Reruns ρ (placing span c) (placing span c') := by
  intro s t hst
  have hc := h s t hst
  generalize hresult : c s = result at hc
  generalize hresult' : c' t = result' at hc
  cases hc with
  | ok a h =>
    rw [placing_ok hresult, placing_ok hresult']
    exact .ok a h
  | error halt h =>
    cases halt with
    | fault =>
      rw [placing_fault hresult, placing_fault hresult', h.sameView.file]
      exact .error _ h
    | outOfFuel =>
      rw [placing_outOfFuel hresult, placing_outOfFuel hresult']
      exact .error _ h
  | unresolved label label' place h =>
    rw [placing_fault hresult, placing_fault hresult', h.sameView.file]
    cases place with
    | none | some place => exact .unresolved label label' _ h

/-- The value of a call. -/
lemma Reruns.inFrame {frame frame' : Frame} (hframe : frame.Renamed ρ frame') {c c' : Exec Unit}
    (h : Reruns ρ c c') : Reruns ρ (inFrame frame c) (inFrame frame' c') := by
  intro s t hst
  have hc := h _ _ (hst.push hframe)
  rw [inFrame_apply, inFrame_apply]
  generalize c (s.onStack (·.push frame)) = result at hc ⊢
  generalize c' (t.onStack (·.push frame')) = result' at hc ⊢
  cases hc with
  | @ok _ s' t' h =>
    have hvalue : s'.stack.top?.map (·.result) = t'.stack.top?.map (·.result) := by
      rcases h.top? with ⟨hs, ht⟩ | ⟨_, _, _, hs, ht⟩
      · rw [hs, ht]
      · rw [hs, ht]
        rfl
    dsimp only
    rw [hvalue]
    exact .ok _ h.pop
  | error halt h => exact .error halt h.pop
  | unresolved label label' place h => exact .unresolved label label' place h.pop

end Rules

/-! ### Steps -/

section Steps

variable {ρ : Renaming}

lemma reruns_get {α : Type} {next next' : State → Exec α}
    (h : ∀ s t, SameView s t → Reruns ρ (next s) (next' t)) :
    Reruns ρ (get >>= next) (get >>= next') :=
  fun s t hst => h s t hst.sameView s t hst

lemma value?_rename {s t : State} (h : s.Renamed ρ t) (v : Var) :
    t.value? (v.rename ρ) = s.value? v := by
  unfold State.value?
  show (if v.isGlobal then _ else _) = _
  split
  · rw [h.globals, Store.get?_rename]
  · rcases h.top? with ⟨hs, ht⟩ | ⟨frame, labels, -, hs, ht⟩
    · rw [hs, ht]
      rfl
    · rw [hs, ht]
      exact Store.get?_rename ρ frame.locals v

lemma reruns_loadVar (v : Var) : Reruns ρ (loadVar v) (loadVar (v.rename ρ)) := by
  intro s t hst
  have hvalue := value?_rename hst v
  cases hs : s.value? v with
  | none =>
    rw [loadVar_none hs, loadVar_none (hvalue.trans hs)]
    exact .error _ hst
  | some value =>
    rw [loadVar_some hs, loadVar_some (hvalue.trans hs)]
    exact .ok value hst

lemma renamed_onLocals {change change' : Store → Store}
    (h : ∀ store, change' (Store.rename ρ store) = Store.rename ρ (change store))
    {frame frame' : Frame} (hframe : frame.Renamed ρ frame') :
    Frame.Renamed ρ { frame with locals := change frame.locals }
      { frame' with locals := change' frame'.locals } := by
  cases hframe with
  | mk hlabels =>
    dsimp only
    rw [h]
    exact .mk _ hlabels

lemma reruns_setGlobal (v : Var) (value : Value) :
    Reruns ρ (modify (State.onGlobals (·.set v.id value)))
      (modify (State.onGlobals (·.set (v.rename ρ).id value))) := by
  intro s t hst
  refine .ok () ⟨?_, hst.heap, hst.frames, hst.recovered, hst.sink⟩
  show Store.set t.globals _ _ = Store.rename ρ (Store.set s.globals _ _)
  rw [hst.globals, Store.set_rename]

lemma reruns_onLocals (change change' : Store → Store)
    (h : ∀ store, change' (Store.rename ρ store) = Store.rename ρ (change store)) :
    Reruns ρ (Exec.modifyFrame fun frame => { frame with locals := change frame.locals })
      (Exec.modifyFrame fun frame => { frame with locals := change' frame.locals }) :=
  fun _ _ hst => .ok () (hst.modifyTop fun _ _ => renamed_onLocals h)

lemma reruns_storeVar (v : Var) (value : Value) :
    Reruns ρ (storeVar v value) (storeVar (v.rename ρ) value) := by
  unfold storeVar
  show Reruns ρ (if v.isGlobal then _ else _) (if v.isGlobal then _ else _)
  split
  · exact reruns_setGlobal v value
  · intro s t hst
    rw [exec_bind_ok (get_run s), exec_bind_ok (get_run t)]
    rcases hst.top? with ⟨hs, ht⟩ | ⟨frame, labels, -, hs, ht⟩
    · rw [hs, ht]
      exact .error _ hst
    · rw [hs, ht]
      exact reruns_onLocals (Store.set · v.id value) (Store.set · (v.rename ρ).id value)
        (fun store => Store.set_rename ρ store v value) s t hst

lemma reruns_jump (label : Label) : Reruns ρ (jump label) (jump (label.rename ρ)) := by
  intro s t hst
  unfold jump
  rw [exec_bind_ok (get_run s), exec_bind_ok (get_run t)]
  rcases hst.top? with ⟨hs, ht⟩ | ⟨frame, labels, hlabels, hs, ht⟩
  · rw [hs, ht]
    exact .unresolved label _ none hst
  · have hposition : frame.position? label =
        Frame.position? { frame with locals := Store.rename ρ frame.locals, labels }
          (label.rename ρ) := (hlabels label).symm
    rw [hs, ht, Option.bind_some, Option.bind_some, ← hposition]
    cases frame.position? label with
    | some position => exact .ok position hst
    | none => exact .unresolved label _ none hst

lemma reruns_modifyFrame {change : Frame → Frame}
    (h : ∀ (frame : Frame) (locals : Store) (labels : LabelPositions),
      change { frame with locals, labels } = { change frame with locals, labels }) :
    Reruns ρ (Exec.modifyFrame change) (Exec.modifyFrame change) := by
  refine fun s t hst => .ok () (hst.modifyTop fun frame frame' hframe => ?_)
  have hself : change frame = { change frame with locals := frame.locals, labels := frame.labels } :=
    h frame frame.locals frame.labels
  have hlocals : (change frame).locals = frame.locals := (congrArg Frame.locals hself :)
  have hpositions : (change frame).labels = frame.labels := (congrArg Frame.labels hself :)
  cases hframe with
  | @mk labels hlabels =>
    rw [← hpositions] at hlabels
    have hchanged := h frame (Store.rename ρ frame.locals) labels
    rw [← hlocals] at hchanged
    rw [← hlocals, hchanged]
    exact .mk (change frame) hlabels

lemma reruns_recover (mode : Mode) (cause : FaultCause) (span : Span) (placeholder : Value) :
    Reruns ρ (recover mode cause span placeholder) (recover mode cause span placeholder) := by
  refine reruns_get fun s t hst => ?_
  rw [hst.file]
  dsimp only
  split
  · exact fun s t hst => .error _ hst
  · exact fun s t hst => .ok placeholder ⟨hst.globals, hst.heap, hst.frames,
      congrArg (Array.push · _) hst.recovered, hst.sink⟩

end Steps

/-! ### Machines -/

/-- **Machines whose programs differ in ids alone**: whatever the one does, the other does too. -/
theorem reruns_congruence {ρ : Renaming} {program program' : Program} (catalog : Catalog)
    (mode : Mode) (hcode : ∀ f : FunctionSymbol, codeOf program' (f.rename ρ) =
      (codeOf program f).map fun found => (found.1, found.2.map (·.rename ρ)))
    (hglobals : program'.globals = program.globals.map (·.rename ρ)) :
    Congruence ρ ⟨program, catalog, mode⟩ ⟨program', catalog, mode⟩ (Reruns ρ) where
  catalog := rfl
  code := hcode
  globals := hglobals
  pure a _ _ hst := .ok a hst
  halt halt _ _ hst := .error halt hst
  bind := .bind
  get := reruns_get
  placing := .placing
  onHeap f s t hst := by
    rw [onHeap_run, onHeap_run, hst.heap]
    exact .ok _ ⟨hst.globals, rfl, hst.frames, hst.recovered, hst.sink⟩
  ask transfer s t hst := by
    rw [ask_run, ask_run, hst.sink]
    exact .ok _ ⟨hst.globals, hst.heap, hst.frames, hst.recovered, rfl⟩
  setGlobal := reruns_setGlobal
  loadVar := reruns_loadVar
  storeVar := reruns_storeVar
  delete v := reruns_onLocals (Store.erase · v.id) (Store.erase · (v.rename ρ).id) fun store =>
    Store.erase_rename ρ store v
  modifyFrame _ := reruns_modifyFrame
  jump := reruns_jump
  recover := reruns_recover mode
  limited depth c c' h := by
    split
    · exact fun _ _ hst => .error _ hst
    · exact h
  inFrame name file code params arguments result c c' h := by
    rw [bindParams_rename]
    exact h.inFrame (.mk (Frame.enter name file code (bindParams params arguments) result)
      (renamed_labelPositions ρ code))

/-- **Runs have the same outcome under new ids**, with the same heap, output and faults from which
they recover, unless they end since a label is not found. -/
theorem runFor_rename {ρ : Renaming} {m m' : Machine} (h : Congruence ρ m m' (Reruns ρ))
    (fuel : Nat) (entry : FunctionSymbol) (sink : Sink)
    (hlabels : ∀ label place, (runFor m fuel entry sink).1 ≠ .failed ⟨.unresolvedLabel label, place⟩) :
    let first := runFor m fuel entry sink
    let second := runFor m' fuel (entry.rename ρ) sink
    second.1 = first.1 ∧ second.2.heap = first.2.heap ∧ second.2.recovered = first.2.recovered ∧
      second.2.sink = first.2.sink := by
  intro first second
  have hresult := h.runEntry fuel entry _ _ (.initial ρ sink)
  have hfirst : first = outcomeOf (runEntry m fuel entry (State.initial sink)) := rfl
  have hsecond : second = outcomeOf (runEntry m' fuel (entry.rename ρ) (State.initial sink)) := rfl
  have hfails : ∀ label place, first.1 ≠ .failed ⟨.unresolvedLabel label, place⟩ := hlabels
  generalize runEntry m fuel entry (State.initial sink) = result at hresult hfirst
  generalize runEntry m' fuel (entry.rename ρ) (State.initial sink) = result' at hresult hsecond
  rw [hsecond]
  rw [hfirst] at hfails ⊢
  cases hresult with
  | ok a h => exact ⟨rfl, h.heap, h.recovered, h.sink⟩
  | error halt h =>
    cases halt with
    | outOfFuel => exact ⟨rfl, h.heap, h.recovered, h.sink⟩
    | fault f =>
      obtain ⟨cause, place⟩ := f
      cases cause <;> exact ⟨rfl, h.heap, h.recovered, h.sink⟩
  | unresolved label label' place => exact absurd rfl (hfails label place)

end Parcel
