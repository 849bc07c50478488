import Parcel.Proofs.Soundness
import Parcel.Proofs.Typing.Nesting

/-!
# Values can be shown

In a run of a program that is bound without errors, arrays are never nested deeper than their types
say, though they are shared and their elements are assigned through any reference to them. So a
value has a text whenever it is converted to one: showing the elements of an array comes to an end.

## Main results

* `State.Typed.grounded` — well-typed states are grounded.
* `Moment.Typed.grounded` — so are typed moments.
* `formatting_ends` — what is bound without errors runs through grounded moments.
-/

namespace Parcel

open Code

variable {heap : Heap} {catalog : Catalog} {results : List Ty}

/-- Every entry is grounded in the type of a variable. -/
def Store.Grounded (store : Store) (vars : List Var) (heap : Heap) : Prop :=
  ∀ entry ∈ store, ∃ v ∈ vars, v.id = entry.1 ∧ heap.Grounded v.type entry.2

/-- No array is reached from its own elements, and whatever a state holds is grounded in its type:
all arrays on the heap with their elements, the fields of containers, the variables, and the results
of the calls that are not yet finished. -/
structure State.Grounded (m : Machine) (s : State) : Prop where
  acyclic : ∀ address, ¬ Relation.TransGen s.heap.Contains address address
  arrays : ∀ address element elements, s.heap.get? address = some (.array element elements) →
    s.heap.Grounded (.array element) (.array address) ∧ ∀ v ∈ elements, s.heap.Grounded element v
  fields : ∀ address type fields, s.heap.get? address = some (.container type fields) →
    ∃ container, m.catalog.container? type = some container ∧
      List.Forall₂ (fun field v => field.1 = v.name ∧ s.heap.Grounded v.type field.2) fields
        container.fields
  globals : s.globals.Grounded m.program.vars s.heap
  locals : ∀ frame ∈ s.stack.frames, frame.locals.Grounded m.program.vars s.heap
  results : ∀ frame ∈ s.stack.frames, ∃ type, s.heap.Grounded type frame.result

/-- The arguments of a call are grounded in the types of the parameters, and so is a receiver. -/
def Activity.Grounded (heap : Heap) : Activity → Prop
  | call f arguments receiver =>
    List.Forall₂ (fun v type => heap.Grounded type v) arguments (f.params.map (·.type)) ∧
      ∀ v ∈ receiver, heap.Grounded builderType v
  | _ => True

/-- States are grounded when an activity starts and when it ends. The values that it starts with,
those of the operands that an expression has evaluated so far, and what it gives are grounded in
their types. Whatever value is grounded when it starts stays so in all that is started in its
course. -/
structure Moment.Grounded (m : Machine) (moment : Moment) : Prop where
  state : moment.state.Grounded m
  given : moment.activity.Grounded moment.state.heap
  kept : ∀ later, Relation.ReflTransGen (Starts m) moment later → ∀ type v,
    moment.state.heap.Grounded type v → later.state.heap.Grounded type v
  operands : ∀ e, moment.activity = .expr e → ∀ done rest values t, e.operands = done ++ rest →
    evalAll m (call m moment.fuel) done moment.state = .ok values t →
    t.Grounded m ∧ List.Forall₂ (fun v type => t.heap.Grounded type v) values (done.map Expr.type)
  ending : Ends (·.ofTyping = false) (·.Grounded m)
    (fun value s => s.Grounded m ∧
      ∀ type ∈ moment.activity.type?, ∃ v ∈ value, s.heap.Grounded type v)
    (moment.ending m)

/-! ### Typed states -/

lemma Store.Typed.grounded {store : Store} {vars : List Var} (h : store.Typed vars heap)
    (hheap : heap.Typed catalog) : store.Grounded vars heap := by
  intro entry hentry
  obtain ⟨v, hv, hid, htype⟩ := h entry hentry
  exact ⟨v, hv, hid, hheap.grounded htype⟩

lemma AreA.grounded {types : List Ty} {values : List Value} (h : AreA types values heap)
    (hheap : heap.Typed catalog) : List.Forall₂ (fun v type => heap.Grounded type v) values types :=
  h.imp fun _ _ htype => hheap.grounded htype

/-- **Well-typed states are grounded.** -/
theorem State.Typed.grounded {m : Machine} {s : State} (h : s.Typed m results) : s.Grounded m where
  acyclic := h.wellTyped.heap.acyclic
  arrays address element elements hget := by
    have harray : s.heap.typeOf? (.array address) = some (.array element) :=
      Heap.typeOf?_eq_some_iff.mpr (.array hget)
    refine ⟨h.wellTyped.heap.grounded harray, fun v hv => ?_⟩
    exact h.wellTyped.heap.grounded (h.wellTyped.heap address _ hget v hv)
  fields address type fields hget := by
    obtain ⟨container, hcontainer, hfields⟩ := h.wellTyped.heap address _ hget
    exact ⟨container, hcontainer,
      hfields.imp fun _ _ hfield => ⟨hfield.1, h.wellTyped.heap.grounded hfield.2⟩⟩
  globals := h.wellTyped.globals.grounded h.wellTyped.heap
  locals frame hframe := (h.wellTyped.locals frame hframe).grounded h.wellTyped.heap
  results frame hframe := by
    obtain ⟨type, hpair⟩ := exists_mem_zip h.results.length_eq hframe
    exact ⟨type, h.wellTyped.heap.grounded (List.forall₂_zip h.results hpair)⟩

section Moments

variable {m : Machine} {sigs : Signatures} (h : m.Typed sigs)
include h

lemma Activity.Typed.grounded {activity : Activity}
    (hactivity : activity.Typed m sigs results heap) (hheap : heap.Typed m.catalog) :
    activity.Grounded heap := by
  cases activity with
  | call f arguments receiver =>
    cases receiver with
    | none => exact ⟨hactivity.2.grounded hheap, fun v hv => nomatch hv⟩
    | some =>
      obtain ⟨harguments, type, hf, hreceiver⟩ := hactivity
      obtain ⟨rfl, -⟩ := h.methods type f hf
      refine ⟨harguments.grounded hheap, ?_⟩
      rintro v ⟨⟩
      exact hheap.grounded hreceiver
  | _ => trivial

/-- **Typed moments are grounded.** -/
theorem Moment.Typed.grounded {moment : Moment} (hmoment : moment.Typed m sigs) :
    moment.Grounded m := by
  have hcourse {later : Moment} (hstarts : Relation.ReflTransGen (Starts m) moment later) :=
    hmoment.course h hstarts
  obtain ⟨results, hs, hactivity⟩ := hmoment
  have hends := hactivity.sound h moment.fuel moment.state ⟨hs, .refl _⟩
  refine ⟨hs.grounded, hactivity.grounded h hs.wellTyped.heap, ?_, ?_, ?_⟩
  · intro later hstarts type v hv
    obtain ⟨⟨_, hlater, -⟩, hgrows⟩ := hcourse hstarts
    exact hlater.wellTyped.heap.grounded (hgrows v type hv.type)
  · intro e he done rest values t hsplit hdone
    rw [he] at hactivity
    have hoperands := HasType.operands hactivity
    rw [hsplit, List.forall_mem_append] at hoperands
    obtain ⟨ht, -, hvalues⟩ := (sound_operands h moment.fuel hoperands.1 _).ok hs hdone
    exact ⟨ht.grounded, AreA.grounded hvalues ht.wellTyped.heap⟩
  · refine hends.mono (fun t ht => ht.1.grounded) fun value t ht => ⟨ht.1.1.grounded, ?_⟩
    intro type htype
    obtain ⟨v, hv, hvtype⟩ := ht.2 type htype
    exact ⟨v, hv, ht.1.1.wellTyped.heap.grounded hvtype⟩

end Moments

/-! ### Whole runs -/

/-- **Showing a value comes to an end.** Of files that are bound without errors where only the
package `sys` is known, in every run from any function of the lowered program, whenever something is
started and whenever it ends: no array is reached from its own elements, and a way along elements
from a value passes through no more arrays than the type of the variable, element, field, parameter
or expression that holds or gives the value has levels. So each of these values has a text, which is
the one that it is shown as, and its conversion to a text or to any other type comes to an end. -/
theorem formatting_ends (files : List Syntax.Program) :
    let sys := Catalog.empty.withSys {}
    let build := bindFiles sys.1 sys.2 files
    let lowered := (build.program.lower.run build.ids).1
    build.errors = #[] → (lowered.vars.map (·.id)).Nodup ∧
      ∀ (mode : Mode) (entry : FunctionSymbol), build.catalog.HasFunction entry →
        ∀ (fuel : Nat) (sink : Sink) (moment : Moment),
          let m : Machine := ⟨lowered, build.catalog, mode⟩
          m.Reaches fuel entry sink moment → moment.Grounded m := by
  intro sys build lowered hclean
  have htyped : build.Typed sys.1 [] := typed_bindFiles formed_withSys sys.2 files
  have hshape : build.Shaped sys.1 sys.2 [] := shaped_bindFiles sys.1 sys.2 files
  have hmachine := htyped.machine hshape formed_withSys bare_withSys provided_withSys hclean
  refine ⟨(hmachine {}).distinct, fun mode entry hentry fuel sink moment => ?_⟩
  intro m hreaches
  have hentry : (build.runSignatures sys.1).function entry := htyped.functions entry hentry
  exact (Machine.Reaches.typed (hmachine mode) hentry hreaches).grounded (hmachine mode)

/-- A function that makes an array of arrays, one of which is there twice, and assigns its
elements. -/
def sharing : Syntax.Program :=
  let here : Span := ⟨0, 0⟩
  let name (text : String) : Syntax.Expr := .name text here
  let bool (value : Bool) : Syntax.Expr := .literal (.bool value) here
  let declare (text : String) (value : Syntax.Expr) : Syntax.Stmt :=
    .declaration ⟨⟨text, here⟩, none, some value, here⟩
  let bools : Syntax.TypeClause := .mk arrayName [.mk "bool" [] here] here
  let grids : Syntax.TypeClause := .mk arrayName [bools] here
  let zeroth (array : Syntax.Expr) : Syntax.Expr := .index array (name "zero") here
  let body : Syntax.Stmt := .block
    [declare "text" (.call (some ⟨"sys", here⟩) ⟨"Builder", here⟩ [] here),
      declare "zero" (.methodCall (name "text") ⟨"Length", here⟩ [] here),
      declare "row" (.makeArray bools none (some [bool true]) here),
      declare "grid" (.makeArray grids none (some [name "row", name "row"]) here),
      .expr (.assign (zeroth (name "grid")) (name "row") here),
      .expr (.assign (zeroth (zeroth (name "grid"))) (bool false) here),
      .ret (some (name "grid")) here] here
  ⟨[.load ⟨"sys", here⟩ false, .function ⟨⟨"share", here⟩, [], some grids, body, here⟩]⟩

/-- Whether something ends with a value that is shown as a text. -/
def showsAs (text : String) : Exec.Result (Option Value) → Bool
  | .ok (some v) s => s.heap.shown v = text
  | _ => false

lemma exists_of_showsAs {text : String} {ending : Exec.Result (Option Value)}
    (h : showsAs text ending = true) : ∃ v s, ending = .ok (some v) s ∧ s.heap.shown v = text := by
  cases ending with
  | ok value s => cases value with
    | some v => exact ⟨v, s, rfl, of_decide_eq_true h⟩
    | none => cases h
  | error => cases h

theorem formatting_ends_sharing :
    let sys := Catalog.empty.withSys {}
    let build := bindFiles sys.1 sys.2 [sharing]
    let m : Machine := ⟨(build.program.lower.run build.ids).1, build.catalog, {}⟩
    build.errors = #[] ∧ ∃ entry, build.catalog.HasFunction entry ∧
      Moment.Grounded m ⟨40, .entry entry, State.initial {}⟩ ∧ ∃ v s,
        Moment.ending m ⟨40, .entry entry, State.initial {}⟩ = .ok (some v) s ∧
          (∀ path, s.heap.Passes v path → path.length ≤ 2) ∧
          s.heap.Displays v "[[false], [false]]" := by
  have hruns : let sys := Catalog.empty.withSys {}
      let build := bindFiles sys.1 sys.2 [sharing]
      let m : Machine := ⟨(build.program.lower.run build.ids).1, build.catalog, {}⟩
      build.errors.size = 0 ∧ ∃ p ∈ build.catalog.packages, ∃ entry ∈ p.functions,
        entry.returnType = .array (.array .bool) ∧
          showsAs "[[false], [false]]" (Moment.ending m ⟨40, .entry entry, State.initial {}⟩) := by
    decide +kernel
  generalize [sharing] = files at hruns ⊢
  obtain ⟨hsize, p, hp, entry, hentry, hreturn, hshows⟩ := hruns
  have hclean := Array.eq_empty_of_size_eq_zero hsize
  have hgrounded := (formatting_ends files hclean).2 {} entry ⟨p, hp, hentry⟩ 40 {} _ .refl
  obtain ⟨v, s, hending, hshown⟩ := exists_of_showsAs hshows
  have hvalue := hgrounded.ending
  rw [hending] at hvalue
  obtain ⟨w, hw, hgiven⟩ := hvalue.2 entry.returnType rfl
  cases hw
  refine ⟨hclean, entry, ⟨p, hp, hentry⟩, hgrounded, v, s, hending, fun path hpath => ?_, ?_⟩
  · exact (hgiven.levels path hpath).trans_eq (congrArg Ty.levels hreturn)
  · exact (hgiven.displays _).mpr hshown.symm

end Parcel
