import Mathlib.Data.List.Nodup
import Parcel.Proofs.Machine.Contract
import Parcel.Proofs.Typing.Heap

/-!
# Typed states

In a state that is well typed, variables hold values of their types, and so do elements and fields.
A sound computation leads from well-typed states to well-typed states. The heap only grows on the
way, so that values that were found before keep their types.
-/

namespace Parcel

open Code List

/-! ### Stores -/

/-- Every entry is a value of the type of a variable. -/
def Store.Typed (store : Store) (vars : List Var) (heap : Heap) : Prop :=
  ∀ entry ∈ store, ∃ v ∈ vars, v.id = entry.1 ∧ heap.typeOf? entry.2 = some v.type

namespace Store

variable {store : Store} {vars : List Var} {heap : Heap}

variable {value : Value} {v : Var}

lemma Typed.mono {heap' : Heap} (h : store.Typed vars heap) (hgrows : heap.Extends heap') :
    store.Typed vars heap' := by
  intro entry hentry
  obtain ⟨v, hv, hid, htype⟩ := h entry hentry
  exact ⟨v, hv, hid, hgrows _ _ htype⟩

lemma Typed.get? (h : store.Typed vars heap) (hdistinct : (vars.map (·.id)).Nodup) (hv : v ∈ vars)
    (hget : store.get? v.id = some value) : heap.typeOf? value = some v.type := by
  obtain ⟨w, hw, hid, htype⟩ := h _ (mem_of_get? hget)
  rwa [inj_on_of_nodup_map hdistinct hw hv hid] at htype

lemma Typed.set (h : store.Typed vars heap) (hv : v ∈ vars)
    (hvalue : heap.typeOf? value = some v.type) : (store.set v.id value).Typed vars heap := by
  intro entry hentry
  rcases mem_of_mem_set hentry with rfl | hentry
  · exact ⟨v, hv, rfl, hvalue⟩
  · exact h entry hentry

lemma Typed.erase (h : store.Typed vars heap) (id : VarId) : (store.erase id).Typed vars heap :=
  fun entry hentry => h entry ((store.erase_sublist id).subset hentry)

lemma typed_bindParams {params : List Var} (hparams : ∀ v ∈ params, v ∈ vars)
    {arguments : List Value}
    (harguments : List.Forall₂ (fun value type => heap.typeOf? value = some type) arguments
      (params.map (·.type))) : (bindParams params arguments).Typed vars heap := by
  have hfold (store : Store) (hstore : store.Typed vars heap) :
      ((params.zip arguments).foldl (fun store bound => store.set bound.1.id bound.2) store).Typed
        vars heap := by
    induction params generalizing store arguments with
    | nil => exact hstore
    | cons v params ih =>
      cases harguments with
      | cons hvalue hrest =>
        obtain ⟨hv, hparams⟩ := forall_mem_cons.mp hparams
        exact ih hparams hrest _ (hstore.set hv hvalue)
  exact hfold [] (forall_mem_nil _)

end Store

/-! ### States -/

/-- Every variable, element and field holds a value of its type. -/
structure State.WellTyped (m : Machine) (s : State) : Prop where
  heap : s.heap.Typed m.catalog
  globals : s.globals.Typed m.program.vars s.heap
  locals : ∀ frame ∈ s.stack.frames, frame.locals.Typed m.program.vars s.heap

/-- A state is well typed, and the results of its calls have these types. -/
structure State.Typed (m : Machine) (results : List Ty) (s : State) : Prop where
  wellTyped : s.WellTyped m
  results : List.Forall₂ (fun frame type => s.heap.typeOf? frame.result = some type)
    s.stack.frames results

lemma State.heap_assign (s : State) (v : Var) (value : Value) : (s.assign v value).heap = s.heap := by
  unfold State.assign
  split
  · rfl
  · rfl

namespace State.Typed

variable {m : Machine} {results : List Ty} {s : State}

variable {value : Value} {v : Var} {type : Ty}

lemma withHeap (h : s.Typed m results) {heap : Heap} (hgrows : s.heap.Extends heap)
    (htyped : heap.Typed m.catalog) : ({ s with heap } : State).Typed m results where
  wellTyped := ⟨htyped, h.wellTyped.globals.mono hgrows,
    fun frame hframe => (h.wellTyped.locals frame hframe).mono hgrows⟩
  results := h.results.imp fun _ _ hresult => hgrows _ _ hresult

lemma withSink (h : s.Typed m results) (sink : Sink) : ({ s with sink } : State).Typed m results :=
  ⟨⟨h.wellTyped.heap, h.wellTyped.globals, h.wellTyped.locals⟩, h.results⟩

lemma addRecovered (h : s.Typed m results) (f : Fault) : (s.addRecovered f).Typed m results :=
  ⟨⟨h.wellTyped.heap, h.wellTyped.globals, h.wellTyped.locals⟩, h.results⟩

lemma onGlobals (h : s.Typed m results) (hv : v ∈ m.program.vars)
    (hvalue : s.heap.typeOf? value = some v.type) :
    (s.onGlobals (·.set v.id value)).Typed m results :=
  ⟨⟨h.wellTyped.heap, h.wellTyped.globals.set hv hvalue, h.wellTyped.locals⟩, h.results⟩

lemma modifyTop (h : s.Typed m results) {change : Frame → Frame}
    (hlocals : ∀ frame, frame.locals.Typed m.program.vars s.heap →
      (change frame).locals.Typed m.program.vars s.heap)
    (hresult : ∀ frame type, type ∈ results.head? → s.heap.typeOf? frame.result = some type →
      s.heap.typeOf? (change frame).result = some type) :
    (s.onStack (·.modifyTop change)).Typed m results := by
  obtain ⟨⟨hheap, hglobals, hframes⟩, hresults⟩ := h
  obtain ⟨globals, heap, ⟨frames, depth, hdepth⟩, recovered, sink⟩ := s
  cases hresults with
  | nil => exact ⟨⟨hheap, hglobals, hframes⟩, .nil⟩
  | @cons frame type rest types htop hrest =>
    obtain ⟨hframe, hframes⟩ := forall_mem_cons.mp hframes
    exact ⟨⟨hheap, hglobals, forall_mem_cons.mpr ⟨hlocals frame hframe, hframes⟩⟩,
      .cons (hresult frame type rfl htop) hrest⟩

lemma push (h : s.Typed m results) {frame : Frame}
    (hlocals : frame.locals.Typed m.program.vars s.heap)
    (hresult : s.heap.typeOf? frame.result = some type) :
    (s.onStack (·.push frame)).Typed m (type :: results) :=
  ⟨⟨h.wellTyped.heap, h.wellTyped.globals,
    forall_mem_cons.mpr ⟨hlocals, h.wellTyped.locals⟩⟩, .cons hresult h.results⟩

lemma pop (h : s.Typed m (type :: results)) : (s.onStack Stack.pop).Typed m results ∧
      ∃ frame, s.stack.top? = some frame ∧ s.heap.typeOf? frame.result = some type := by
  obtain ⟨⟨hheap, hglobals, hframes⟩, hresults⟩ := h
  obtain ⟨globals, heap, ⟨frames, depth, hdepth⟩, recovered, sink⟩ := s
  cases hresults with
  | @cons frame _ rest _ hresult hrest =>
    exact ⟨⟨⟨hheap, hglobals, (forall_mem_cons.mp hframes).2⟩, hrest⟩, frame, rfl, hresult⟩

lemma assign (h : s.Typed m results) (hv : v ∈ m.program.vars)
    (hvalue : s.heap.typeOf? value = some v.type) : (s.assign v value).Typed m results := by
  unfold State.assign
  split
  · exact h.onGlobals hv hvalue
  · exact h.modifyTop (fun _ hlocals => hlocals.set hv hvalue) fun _ _ _ hresult => hresult

lemma value? (h : s.Typed m results) (hdistinct : (m.program.vars.map (·.id)).Nodup)
    (hv : v ∈ m.program.vars) (hvalue : s.value? v = some value) :
    s.heap.typeOf? value = some v.type := by
  unfold State.value? at hvalue
  split at hvalue
  · exact h.wellTyped.globals.get? hdistinct hv hvalue
  · obtain ⟨frame, hframe, hget⟩ := Option.bind_eq_some_iff.mp hvalue
    exact (h.wellTyped.locals frame (mem_of_mem_head? hframe)).get? hdistinct hv hget

end State.Typed

/-! ### Computations -/

/-- A well-typed state in which every value of a heap keeps its type. -/
def Above (m : Machine) (results : List Ty) (base : Heap) (s : State) : Prop :=
  s.Typed m results ∧ base.Extends s.heap

/-- From a well-typed state the computation leads to a well-typed state, and its faults are no
faults of typing. All values keep their types, and of what it gives `post` holds. -/
def Sound {α : Type} (m : Machine) (results : List Ty) (base : Heap) (c : Exec α)
    (post : α → Heap → Prop) : Prop :=
  Triple (·.ofTyping = false) (Above m results base) (Above m results base) c
    fun a s => Above m results base s ∧ post a s.heap

abbrev IsA (type : Ty) (v : Value) (heap : Heap) : Prop :=
  heap.typeOf? v = some type

/-- Nothing is said of what a computation gives. -/
abbrev Anything {α : Type} (_ : α) (_ : Heap) : Prop :=
  True

section Rules

variable {α β : Type} {m : Machine} {results : List Ty} {base : Heap} {post : β → Heap → Prop}

lemma sound_pure {a : β} (h : ∀ heap, base.Extends heap → post a heap) :
    Sound m results base (pure a) post :=
  fun _ hs => ⟨hs, h _ hs.2⟩

lemma sound_fail {cause : FaultCause} (h : cause.ofTyping = false) :
    Sound m results base (Exec.fail cause) post :=
  fun _ hs => ⟨h, hs⟩

lemma Sound.ends {c : Exec β} {s : State} (h : Sound m results s.heap c post)
    (hs : Above m results base s) : Ends (·.ofTyping = false) (Above m results base)
      (fun a t => Above m results base t ∧ post a t.heap) (c s) :=
  (h s ⟨hs.1, .refl _⟩).mono (fun _ ht => ⟨ht.1, hs.2.trans ht.2⟩)
    fun _ _ ht => ⟨⟨ht.1.1, hs.2.trans ht.1.2⟩, ht.2⟩

/-- One computation after the other. The second one starts on a heap that has grown. -/
lemma Sound.bind {c : Exec α} {next : α → Exec β} {mid : α → Heap → Prop}
    (hc : Sound m results base c mid)
    (hnext : ∀ a heap, base.Extends heap → mid a heap → Sound m results heap (next a) post) :
    Sound m results base (c >>= next) post :=
  Triple.bind hc fun a s hs => (hnext a s.heap hs.1.2 hs.2).ends hs.1

lemma Sound.placing {c : Exec β} (h : Sound m results base c post) (span : Span) :
    Sound m results base (placing span c) post := by
  intro s hs
  have hends := h s hs
  cases hc : c s with
  | ok =>
    rw [hc] at hends
    rw [placing_ok hc]
    exact hends
  | error halt =>
    rw [hc] at hends
    cases halt with
    | fault =>
      rw [placing_fault hc]
      exact hends
    | outOfFuel =>
      rw [placing_outOfFuel hc]
      trivial

lemma sound_ofExcept {type : Ty} {result : Except FaultCause Value} (h : base.Yields type result) :
    Sound m results base (Exec.ofExcept result) (IsA type) := by
  cases result with
  | ok v => exact sound_pure fun heap hgrows => hgrows v type h
  | error => exact sound_fail h

lemma sound_ofExcept_ok {result : Except FaultCause β} {a : β} (h : result = .ok a) :
    Sound m results base (Exec.ofExcept result) fun b _ => b = a := by
  rw [h]
  exact sound_pure fun _ _ => rfl

lemma sound_onHeap {f : Heap → β × Heap}
    (h : ∀ heap, base.Extends heap → heap.Typed m.catalog →
      heap.Extends (f heap).2 ∧ (f heap).2.Typed m.catalog ∧ post (f heap).1 (f heap).2) :
    Sound m results base (Exec.onHeap f) post := by
  intro s hs
  obtain ⟨hgrows, htyped, hpost⟩ := h s.heap hs.2 hs.1.wellTyped.heap
  rw [onHeap_run]
  exact ⟨⟨hs.1.withHeap hgrows htyped, hs.2.trans hgrows⟩, hpost⟩

lemma sound_gives {type : Ty} {f : Heap → Value × Heap}
    (h : ∀ heap, base.Extends heap → heap.Typed m.catalog →
      Heap.Gives m.catalog heap type (f heap)) :
    Sound m results base (Exec.onHeap f) (IsA type) :=
  sound_onHeap fun heap hgrows htyped =>
    have hgives := h heap hgrows htyped
    ⟨hgives.grows, hgives.typed, hgives.value⟩

lemma sound_get {next : State → Exec β}
    (h : ∀ s : State, base.Extends s.heap → s.heap.Typed m.catalog →
      Sound m results s.heap (next s) post) : Sound m results base (get >>= next) post := by
  intro s hs
  rw [exec_bind_ok (get_run s)]
  exact (h s hs.2 hs.1.wellTyped.heap).ends hs

end Rules

end Parcel
