import Parcel.Proofs.Assignment
import Parcel.Proofs.Machine.Activity
import Parcel.Proofs.Resolution
import Parcel.Proofs.Typing.Machine

/-!
# Type soundness

A program that is bound without errors runs in well-typed states. All along a run, what is evaluated
gives a value of its type, and no operation meets an operand that it is not for.

## Main results

* `Starts.typed` — typed activities start typed activities.
* `Machine.Reaches.sound` — all moments of a run are sound if the machine is typed.
* `Build.Typed.machine` — machines that run lowered programs are typed.
* `type_soundness` — what is bound without errors runs soundly.
-/

namespace Parcel

open Code List

/-! ### What typed code evaluates -/

namespace Code

variable {sigs : Signatures}

lemma HasType.own {e : Expr} {τ : Ty} (h : HasType sigs e τ) : HasType sigs e e.type := by
  rwa [h.type_eq]

/-- Each expression that is evaluated for a typed one is typed. -/
lemma HasType.operands {e : Expr} {τ : Ty} (h : HasType sigs e τ) :
    ∀ operand ∈ e.operands, HasType sigs operand operand.type := by
  have one {e : Expr} {τ : Ty} (he : HasType sigs e τ) :
      ∀ operand ∈ [e], HasType sigs operand operand.type :=
    forall_mem_singleton.mpr he.own
  have all {f : FunctionSymbol} {arguments : List Expr} (hlength : arguments.length = f.params.length)
      (hargs : ∀ p ∈ arguments.zip (f.params.map (·.type)), HasType sigs p.1 p.2) :
      ∀ operand ∈ arguments, HasType sigs operand operand.type := by
    intro operand hoperand
    obtain ⟨σ, hp⟩ := exists_mem_zip (hlength.trans (length_map _).symm) hoperand
    exact (hargs (operand, σ) hp).own
  cases h with
  | literal | name => exact forall_mem_nil _
  | paren _ he | assignName _ _ _ he | unary _ he _ | conversion _ he _ | makeLength _ he _ =>
    exact one he
  | assignIndex _ _ ht hi he =>
    exact forall_mem_cons.mpr ⟨ht.own, forall_mem_cons.mpr ⟨hi.own, one he⟩⟩
  | binary _ hl hr _ _ | index _ hl hr _ => exact forall_mem_cons.mpr ⟨hl.own, one hr⟩
  | call _ _ hlength hargs => exact all hlength hargs
  | methodCall _ hr _ hlength hargs => exact forall_mem_cons.mpr ⟨hr.own, all hlength hargs⟩
  | makeElements _ hes => exact fun operand hoperand => (hes operand hoperand).own

lemma Stmt.OwnTyped.ownExprs {result : Ty} {stmt : Stmt} (h : stmt.OwnTyped sigs result) :
    ∀ e ∈ stmt.ownExprs, HasType sigs e e.type := by
  have one {e : Expr} {τ : Ty} (he : HasType sigs e τ) : ∀ e' ∈ [e], HasType sigs e' e'.type :=
    forall_mem_singleton.mpr he.own
  cases stmt with
  | declare v initializer => cases initializer with
    | none => exact forall_mem_nil _
    | some => exact one h.2
  | ret value => cases value with
    | none => exact forall_mem_nil _
    | some => exact one h
  | expr => exact h.elim fun _ he => one he
  | whileLoop | forLoop | ifElse | gotoIf => exact one h
  | fromTo => exact forall_mem_cons.mpr ⟨h.2.2.1.own, one h.2.2.2⟩
  | loop => exact one h.2.2
  | block | label | goto | delete | approach => exact forall_mem_nil _

end Code

/-! ### Typed moments -/

/-- An activity is typed: it runs typed code, on values of the types that are asked for. -/
def Activity.Typed (m : Machine) (sigs : Signatures) (results : List Ty) (heap : Heap) :
    Activity → Prop
  | entry f => sigs.function f
  | reset v => v ∈ m.program.globals.flatMap declaredVars
  | group g => g ∈ m.program.globals
  | call f arguments none => sigs.function f ∧ AreA (f.params.map (·.type)) arguments heap
  | call f arguments (some receiver) => AreA (f.params.map (·.type)) arguments heap ∧
    ∃ type, sigs.method type f ∧ heap.typeOf? receiver = some type
  | code body => ∃ type ∈ results.head?, ∀ stmt ∈ body, stmt.OwnTyped sigs type
  | stmt part => ∃ type ∈ results.head?, part.OwnTyped sigs type
  | expr e => HasType sigs e e.type

/-- A typed activity starts in a well-typed state. -/
def Moment.Typed (m : Machine) (sigs : Signatures) (moment : Moment) : Prop :=
  ∃ results, moment.state.Typed m results ∧
    moment.activity.Typed m sigs results moment.state.heap

/-- States are well typed when an activity starts and when it ends. It ends with a value of its type
or with a fault that is no fault of typing. -/
structure Moment.Sound (m : Machine) (moment : Moment) : Prop where
  state : moment.state.WellTyped m
  ending : Ends (·.ofTyping = false) (·.WellTyped m)
    (fun value s => s.WellTyped m ∧
      ∀ type ∈ moment.activity.type?, ∃ v ∈ value, s.heap.typeOf? v = some type)
    (moment.ending m)

lemma State.typed_initial (m : Machine) (sink : Sink) : (State.initial sink).Typed m [] where
  wellTyped := ⟨Heap.typed_empty _, forall_mem_nil _, forall_mem_nil _⟩
  results := .nil

section Moments

variable {m : Machine} {sigs : Signatures} {results : List Ty}

lemma Sound.ok {α : Type} {c : Exec α} {post : α → Heap → Prop} {s t : State} {a : α}
    (h : Sound m results s.heap c post) (hs : s.Typed m results) (hc : c s = .ok a t) :
    t.Typed m results ∧ s.heap.Extends t.heap ∧ post a t.heap := by
  have hends := h s ⟨hs, .refl _⟩
  rw [hc] at hends
  exact ⟨hends.1.1, hends.1.2, hends.2⟩

lemma mem_of_mem_initSchedule {entry : String} {g : GlobalGroup} (h : g ∈ initSchedule m entry) :
    g ∈ m.program.globals := by
  obtain ⟨package, -, hg⟩ := mem_flatMap.mp h
  exact (mem_filter.mp hg).1

variable (h : m.Typed sigs)
include h

/-- Typed expressions are evaluated one after the other. -/
lemma sound_operands (fuel : Nat) {es : List Expr} (hes : ∀ e ∈ es, HasType sigs e e.type)
    (base : Heap) : Sound m results base (evalAll m (call m fuel) es) (AreA (es.map Expr.type)) := by
  refine sound_evalAll (length_map _).symm (fun p hp base => ?_) base
  rw [← map_prod_left_eq_zip] at hp
  obtain ⟨e, he, rfl⟩ := mem_map.mp hp
  exact sound_eval h (sound_call h fuel) (hes e he) base

lemma sound_arguments (fuel : Nat) {f : FunctionSymbol} {arguments : List Expr}
    (hlength : arguments.length = f.params.length)
    (hargs : ∀ p ∈ arguments.zip (f.params.map (·.type)), HasType sigs p.1 p.2) (base : Heap) :
    Sound m results base (evalAll m (call m fuel) arguments) (AreA (f.params.map (·.type))) :=
  sound_evalAll (hlength.trans (length_map _).symm)
    (fun p hp => sound_eval h (sound_call h fuel) (hargs p hp)) base

/-- **Typed activities are sound**, and what they give is of their type. -/
theorem Activity.Typed.sound (fuel : Nat) {activity : Activity} {base : Heap}
    (hactivity : activity.Typed m sigs results base) :
    Sound m results base (activity.run m fuel) fun value heap =>
      ∀ type ∈ activity.type?, ∃ v ∈ value, heap.typeOf? v = some type := by
  have gives {c : Exec Value} {τ : Ty} (hc : Sound m results base c (IsA τ)) :
      Sound m results base (do
        let value ← c
        return some value) fun value heap =>
          ∀ type ∈ some τ, ∃ v ∈ value, heap.typeOf? v = some type := by
    refine hc.bind fun v heap _ hv => sound_pure fun heap' hgrows type htype => ?_
    obtain rfl := Option.some.inj htype
    exact ⟨v, rfl, hgrows _ _ hv⟩
  have nothing {α : Type} {c : Exec α} (hc : Sound m results base c Anything) :
      Sound m results base (do
        let _ ← c
        return none) fun (value : Option Value) heap =>
          ∀ type ∈ none, ∃ v ∈ value, heap.typeOf? v = some type :=
    hc.bind fun _ _ _ _ => sound_pure fun _ _ _ htype => nomatch htype
  cases activity with
  | entry => exact gives (sound_runEntry h fuel hactivity base)
  | reset => exact nothing (sound_setDefault h hactivity base)
  | group => exact nothing (sound_runGroup h fuel hactivity base)
  | call f arguments receiver =>
    cases receiver with
    | none => exact gives ((sound_call h fuel).function results hactivity.1 hactivity.2)
    | some =>
      obtain ⟨harguments, type, hf, hreceiver⟩ := hactivity
      exact gives ((sound_call h fuel).method results hf harguments hreceiver)
  | code =>
    obtain ⟨type, htype, hbody⟩ := hactivity
    obtain ⟨rest, rfl⟩ := head?_eq_some_iff.mp htype
    exact nothing (sound_runCode h fuel (fun k _ => sound_call h k) hbody base)
  | stmt =>
    obtain ⟨type, htype, hpart⟩ := hactivity
    obtain ⟨rest, rfl⟩ := head?_eq_some_iff.mp htype
    exact nothing (sound_execute h (sound_call h fuel) hpart base)
  | expr => exact gives (sound_eval h (sound_call h fuel) hactivity base)

/-- **Typed activities start typed activities**, in well-typed states, and all values keep their
types. -/
theorem Starts.typed {before after : Moment} (hstarts : Starts m before after)
    (hbefore : before.Typed m sigs) :
    after.Typed m sigs ∧ before.state.heap.Extends after.state.heap := by
  obtain ⟨results, hs, hactivity⟩ := hbefore
  have reset : ∀ v ∈ m.program.globals.flatMap declaredVars, ∀ base,
      Sound m results base (setDefault m v) Anything := fun v hv => sound_setDefault h hv
  cases hstarts with
  | @reset fuel f s t done rest v hsplit hdone =>
    rw [hsplit] at reset
    obtain ⟨ht, hgrows, -⟩ :=
      (sound_forM (fun v hv => reset v (mem_append_left _ hv)) _).ok hs hdone
    have hv : v ∈ done ++ v :: rest := mem_append_right _ mem_cons_self
    exact ⟨⟨results, ht, (hsplit ▸ hv : v ∈ m.program.globals.flatMap declaredVars)⟩, hgrows⟩
  | @group fuel f s s₁ t done rest g hsplit hreset hdone =>
    have hmem : ∀ g' ∈ done ++ g :: rest, g' ∈ m.program.globals :=
      fun g' hg' => mem_of_mem_initSchedule (hsplit ▸ hg')
    obtain ⟨hs₁, hgrows, -⟩ := (sound_forM reset _).ok hs hreset
    have hrun : ∀ g' ∈ done, ∀ base, Sound m results base (runGroup m fuel g') Anything :=
      fun g' hg' => sound_runGroup h fuel (hmem g' (mem_append_left _ hg'))
    obtain ⟨ht, hgrows', -⟩ := (sound_forM hrun _).ok hs₁ hdone
    exact ⟨⟨results, ht, hmem g (mem_append_right _ mem_cons_self)⟩, hgrows.trans hgrows'⟩
  | entry hglobals hdefaults =>
    obtain ⟨hs₁, hgrows, -⟩ := (sound_runGlobals h _ _ _).ok hs hglobals
    obtain ⟨ht, hgrows', harguments⟩ :=
      (sound_defaults h (h.formed _ hactivity).params _).ok hs₁ hdefaults
    exact ⟨⟨results, ht, hactivity, harguments⟩, hgrows.trans hgrows'⟩
  | @declarations fuel g s =>
    have htop : s.heap.typeOf? .void = some .void := rfl
    refine ⟨⟨.void :: results, hs.push (forall_mem_nil _) htop, .void, rfl, fun stmt hstmt => ?_⟩,
      .refl _⟩
    exact h.groups g hactivity stmt (mem_toArray.mp hstmt)
  | @body fuel f arguments receiver file code result s t hkind hdepth hcode hresult =>
    cases receiver with
    | none =>
      obtain ⟨hf, harguments⟩ := hactivity
      obtain ⟨ht, hgrows, hresult⟩ := (sound_default h (h.formed f hf).result).ok hs hresult
      have hlocals := Store.typed_bindParams (h.params f hf hkind) (harguments.mono hgrows)
      exact ⟨⟨f.returnType :: results, ht.push hlocals hresult, f.returnType, rfl,
        h.bodies f file code hf hkind hcode⟩, hgrows⟩
    | some =>
      obtain ⟨-, type, hf, -⟩ := hactivity
      obtain ⟨-, native, hnative, -⟩ := h.methods type f hf
      rw [hkind] at hnative
      cases hnative
  | stmt htop hreturned hstmt =>
    obtain ⟨type, htype, hcode⟩ := hactivity
    exact ⟨⟨results, hs, type, htype, hcode _ (Array.mem_of_getElem? hstmt)⟩, .refl _⟩
  | @next fuel code stmt frame jumped s t htop hreturned hstmt hdone =>
    obtain ⟨type, htype, hcode⟩ := hactivity
    have hown := hcode stmt (Array.mem_of_getElem? hstmt)
    obtain ⟨rest, rfl⟩ := head?_eq_some_iff.mp htype
    obtain ⟨ht, hgrows, -⟩ := (sound_execute h (sound_call h fuel) hown _).ok hs hdone
    exact ⟨⟨_, ht.modifyTop (fun _ hlocals => hlocals) (fun _ _ _ hresult => hresult), type, htype,
      hcode⟩, hgrows⟩
  | expr he =>
    obtain ⟨type, htype, hown⟩ := hactivity
    exact ⟨⟨results, hs, hown.ownExprs _ he⟩, .refl _⟩
  | @operand fuel e operand done rest values s t hsplit hdone =>
    have hoperands := HasType.operands hactivity
    rw [hsplit, forall_mem_append, forall_mem_cons] at hoperands
    obtain ⟨ht, hgrows, -⟩ := (sound_operands h fuel hoperands.1 _).ok hs hdone
    exact ⟨⟨results, ht, hoperands.2.1⟩, hgrows⟩
  | @function fuel f arguments span values s t hdone =>
    cases hactivity with
    | call _ hf hlength hargs =>
      obtain ⟨ht, hgrows, hvalues⟩ := (sound_arguments h fuel hlength hargs _).ok hs hdone
      exact ⟨⟨results, ht, hf, hvalues⟩, hgrows⟩
  | @method fuel f receiver arguments span value values s s₁ t hreceiver hdone =>
    cases hactivity with
    | methodCall _ hr hf hlength hargs =>
      obtain ⟨hs₁, hgrows, hvalue⟩ := (sound_eval h (sound_call h fuel) hr _).ok hs hreceiver
      obtain ⟨ht, hgrows', hvalues⟩ := (sound_arguments h fuel hlength hargs _).ok hs₁ hdone
      exact ⟨⟨results, ht, hvalues, _, hf, hgrows' _ _ hvalue⟩, hgrows.trans hgrows'⟩

lemma Moment.Typed.course {moment later : Moment} (hmoment : moment.Typed m sigs)
    (hcourse : Relation.ReflTransGen (Starts m) moment later) :
    later.Typed m sigs ∧ moment.state.heap.Extends later.state.heap := by
  induction hcourse with
  | refl => exact ⟨hmoment, .refl _⟩
  | tail _ hstarts ih =>
    obtain ⟨hlater, hgrows⟩ := hstarts.typed h ih.1
    exact ⟨hlater, ih.2.trans hgrows⟩

lemma Moment.Typed.sound {moment : Moment} (hmoment : moment.Typed m sigs) : moment.Sound m := by
  obtain ⟨results, hs, hactivity⟩ := hmoment
  have hends := hactivity.sound h moment.fuel moment.state ⟨hs, .refl _⟩
  exact ⟨hs.wellTyped, hends.mono (fun _ ht => ht.1.wellTyped) fun _ _ ht => ⟨ht.1.1.wellTyped, ht.2⟩⟩

lemma Machine.Reaches.typed {fuel : Nat} {entry : FunctionSymbol} (hentry : sigs.function entry)
    {sink : Sink} {moment : Moment} (hreaches : m.Reaches fuel entry sink moment) :
    moment.Typed m sigs := by
  have hstart : Moment.Typed m sigs ⟨fuel, .entry entry, State.initial sink⟩ :=
    ⟨[], State.typed_initial m sink, hentry⟩
  exact (hstart.course h hreaches).1

/-- **All moments of a run are sound.** -/
theorem Machine.Reaches.sound {fuel : Nat} {entry : FunctionSymbol} (hentry : sigs.function entry)
    {sink : Sink} {moment : Moment} (hreaches : m.Reaches fuel entry sink moment) :
    moment.Sound m :=
  (hreaches.typed h hentry).sound h

end Moments

/-! ### Machines that run lowered programs -/

/-- The machine provides the functions and methods of the catalog, with the types that they are
declared with. -/
structure Catalog.Provided (c : Catalog) : Prop where
  builder : c.HasBuilder
  functions : ∀ p ∈ c.packages, ∀ f ∈ p.functions, ∃ native, f.kind = .native native ∧
    native.isMethod = false ∧ f.Fits native
  methods : ∀ container ∈ c.containers, ∀ f ∈ container.methods, container.type = builderType ∧
    ∃ native, f.kind = .native native ∧ f.Fits native

/-- What the lowered code of a program may refer to that is bound on top of a catalog. -/
def Build.runSignatures (catalog : Catalog) (b : Build) : Signatures where
  var v := v ∈ (b.program.lower.run b.ids).1.vars
  function f := catalog.HasFunction f ∨ f ∈ b.declared []
  method := catalog.HasMethod

namespace Code

variable {p : Program} {ids ids' : Ids}

lemma globalVars_subset_lower : p.globalVars ⊆ (p.lower.run ids).1.vars :=
  subset_append_left _ _

/-- The parameters of a function and the variables of its lowered body are variables of the lowered
program. -/
lemma function_vars_subset_lower {g : Function} {body : Stmt} (hbody : g.body = .structured body)
    (hlow : (g.lower.run ids').1 ∈ (p.lower.run ids).1.functions) :
    g.symbol.params ++ (body.lower.run ids').1.vars ⊆ (p.lower.run ids).1.vars := by
  intro v hv
  refine mem_append_right _ (mem_flatMap.mpr ⟨_, hlow, ?_⟩)
  rwa [lower_structured hbody, Function.vars, introduced_lowered]

end Code

section Machines

variable {catalog : Catalog} {ids : Ids} {b : Build}

lemma Catalog.SameTypes.hasBuilder {c c' : Catalog} (h : c.SameTypes c') (hbuilder : c.HasBuilder) :
    c'.HasBuilder := by
  unfold HasBuilder container? at *
  rwa [h.containers]

lemma Build.exists_function (hbare : catalog.Bare) {f : FunctionSymbol}
    (hf : (b.runSignatures catalog).function f) (hkind : f.kind = .interpreted) :
    ∃ g ∈ b.program.functions, g.symbol = f := by
  rcases hf with hf | hf
  · exact absurd hkind (hbare.functions f hf)
  · simpa [Build.declared] using hf

lemma Build.Shaped.mem_lower_of_globalsOf (h : b.Shaped catalog ids []) (hbare : catalog.Bare)
    {package : String} {v : Var} (hv : v ∈ b.catalog.globalsOf package) :
    v ∈ (b.program.lower.run b.ids).1.vars :=
  globalVars_subset_lower ((h.globals v (Catalog.hasGlobal_of_globalsOf hv)).resolve_left
    (hbare.globals v))

lemma Build.ownTyped_runSignatures {stmt : Stmt} {result : Ty}
    (h : stmt.OwnTyped (b.signatures catalog []) result)
    (hown : stmt.ownVars ⊆ (b.program.lower.run b.ids).1.vars)
    (hvar : ∀ a ∈ stmt.ownAccesses, ∀ v ∈ a.var?, v ∈ (b.program.lower.run b.ids).1.vars) :
    stmt.OwnTyped (b.runSignatures catalog) result := by
  have hfunction (f : FunctionSymbol) (hf : (b.signatures catalog []).function f) :
      (b.runSignatures catalog).function f := hf
  have hmethod (type : Ty) (f : FunctionSymbol) (hf : (b.signatures catalog []).method type f) :
      (b.runSignatures catalog).method type f := hf
  exact h.mono hfunction hmethod (fun v hv _ => hown hv) fun a ha v hv _ => hvar a ha v hv

lemma Build.Typed.lowered_body (h : b.Typed catalog []) (hshape : b.Shaped catalog ids [])
    (hbare : catalog.Bare) (hclean : b.errors = #[]) {g : Function} (hg : g ∈ b.program.functions)
    {body : Stmt} {ids' : Ids} (hbody : g.body = .structured body)
    (hlow : (g.lower.run ids').1 ∈ (b.program.lower.run b.ids).1.functions) :
    (body.lower.run ids').1.Typed (b.runSignatures catalog) g.symbol.returnType := by
  obtain ⟨body', hbody', -, hscoped⟩ := hshape.bodies g hg
  obtain rfl := Body.structured.inj (hbody.symm.trans hbody')
  obtain ⟨body', hbody', htyped⟩ := h.bodies hclean g hg
  obtain rfl := Body.structured.inj (hbody.symm.trans hbody')
  obtain ⟨hparams, hlowered⟩ := append_subset.mp (function_vars_subset_lower hbody hlow)
  have hvars : body.vars ⊆ (b.program.lower.run b.ids).1.vars :=
    List.Subset.trans (introduces_lower body ids').vars hlowered
  refine typed_lower body ids' (fun part hpart => ?_) fun v hv => hlowered hv
  refine ownTyped_runSignatures (htyped part hpart) (fun v hv => ?_) fun a ha v hv => ?_
  · exact hvars (mem_flatMap.mpr ⟨part, hpart, hv⟩)
  · rcases var_mem_of_scoped hscoped a (mem_flatMap.mpr ⟨part, hpart, ha⟩) v hv with hv | hv
    · rcases mem_append.mp hv with hv | hv
      · exact hparams hv
      · exact hshape.mem_lower_of_globalsOf hbare hv
    · exact hvars hv

lemma Build.Typed.lowered_declarations (h : b.Typed catalog []) (hshape : b.Shaped catalog ids [])
    (hbare : catalog.Bare) (hclean : b.errors = #[]) {group : GlobalGroup}
    (hgroup : group ∈ b.program.globals) :
    ∀ stmt ∈ group.stmts, stmt.OwnTyped (b.runSignatures catalog) .void := by
  intro stmt hstmt
  have htyped := h.declarations hclean group hgroup stmt hstmt
  obtain ⟨v, initializer, rfl, -, hinit⟩ := hshape.declarations group hgroup stmt hstmt
  refine ownTyped_runSignatures htyped (fun w hw => ?_) fun a ha w hw => ?_
  · exact globalVars_subset_lower (mem_flatMap.mpr ⟨group, hgroup,
      mem_flatMap.mpr ⟨_, hstmt, hw⟩⟩)
  · cases initializer with
    | none => cases ha
    | some e =>
      exact globalVars_subset_lower ((hinit e rfl a ha w hw).resolve_left (hbare.globals w))

/-- **A machine that runs a lowered program is typed**, if nothing was reported. -/
theorem Build.Typed.machine (h : b.Typed catalog []) (hshape : b.Shaped catalog ids [])
    (hcatalog : catalog.Formed) (hbare : catalog.Bare) (hprovided : catalog.Provided)
    (hclean : b.errors = #[]) (mode : Mode) :
    Machine.Typed ⟨(b.program.lower.run b.ids).1, b.catalog, mode⟩ (b.runSignatures catalog) where
  builder := h.sameTypes.hasBuilder hprovided.builder
  distinct := (taken_order hshape (.refl _)).lower.nodup_vars
  vars _ hv := hv
  globals v hv := by
    obtain ⟨group, hgroup, hv⟩ := mem_flatMap.mp hv
    obtain ⟨stmt, hstmt, hv⟩ := mem_filterMap.mp hv
    obtain ⟨w, initializer, rfl, -⟩ := hshape.declarations group hgroup stmt hstmt
    obtain rfl := Option.some.inj hv
    have hmem : w ∈ b.program.globalVars := mem_flatMap.mpr ⟨group, hgroup,
      mem_flatMap.mpr ⟨_, hstmt, mem_singleton.mpr rfl⟩⟩
    exact ⟨globalVars_subset_lower hmem, h.globals hclean w hmem⟩
  formed f hf := hf.elim (hcatalog.functions f) (h.symbols hclean f)
  natives f native hf hkind := by
    rcases hf with ⟨p, hp, hf⟩ | hf
    · obtain ⟨native', hkind', hfits⟩ := hprovided.functions p hp f hf
      obtain rfl := FunctionKind.native.inj (hkind.symm.trans hkind')
      exact hfits
    · rw [h.interpreted f hf] at hkind
      cases hkind
  methods type f hf := by
    obtain ⟨container, hcontainer, rfl, hf⟩ := hf
    exact hprovided.methods container hcontainer f hf
  params f hf hkind v hv := by
    obtain ⟨g, hg, rfl⟩ := exists_function hbare hf hkind
    obtain ⟨body, ids', hbody, hlow, -⟩ := hshape.codeOf_lower hg
    exact function_vars_subset_lower hbody hlow (mem_append_left _ hv)
  bodies f file code hf hkind hcode := by
    obtain ⟨g, hg, rfl⟩ := exists_function hbare hf hkind
    obtain ⟨body, ids', hbody, hlow, hcode'⟩ := hshape.codeOf_lower hg
    obtain ⟨rfl, rfl⟩ := Prod.mk.inj (Except.ok.inj (hcode.symm.trans hcode'))
    intro stmt hstmt
    rw [flatten_eq_flat, mem_toArray] at hstmt
    exact survives_ownTyped.forall_flat (isJumpCode_lower body ids')
      (h.lowered_body hshape hbare hclean hg hbody hlow) stmt hstmt
  groups group hgroup := h.lowered_declarations hshape hbare hclean hgroup

end Machines

/-! ### The package `sys` -/

instance FunctionSymbol.decidableFits (f : FunctionSymbol) (native : Native) :
    Decidable (f.Fits native) :=
  inferInstanceAs (Decidable (_ ∧ _))

instance FunctionKind.decidableExists {P : Native → Prop} [DecidablePred P] :
    (kind : FunctionKind) → Decidable (∃ native, kind = .native native ∧ P native)
  | .interpreted => .isFalse fun ⟨_, hkind, _⟩ => nomatch hkind
  | .native callable => decidable_of_iff (P callable)
    ⟨fun h => ⟨callable, rfl, h⟩, fun ⟨_, hkind, h⟩ => FunctionKind.native.inj hkind ▸ h⟩

lemma provided_withSys : (Catalog.empty.withSys {}).1.Provided where
  builder := by
    have hany : ((Catalog.empty.withSys {}).1.container? builderType).any (fun container =>
        container.fields.map (fun v => (v.name, v.type)) = [(bufferName, .string)]) = true := by
      decide +kernel
    obtain ⟨container, hcontainer, hfields⟩ := (Option.any_eq_true ..).mp hany
    exact ⟨container, hcontainer, of_decide_eq_true hfields⟩
  functions := by decide +kernel
  methods := by decide +kernel

/-! ### Whole runs -/

/-- A run whose start is sound fails without a fault of typing. If it finishes, it does so with a
value of the return type, unless the program exits. -/
lemma Moment.Sound.outcome {m : Machine} {fuel : Nat} {entry : FunctionSymbol} {sink : Sink}
    (h : Moment.Sound m ⟨fuel, .entry entry, State.initial sink⟩) :
    (∀ fault, (runFor m fuel entry sink).1 = .failed fault → fault.cause.ofTyping = false) ∧
      ∀ value code s, runFor m fuel entry sink = (.finished value code, s) →
        s.heap.typeOf? value = some entry.returnType ∨ value = .void ∧ ∃ origin,
          runEntry m fuel entry (State.initial sink) = .error (.fault ⟨.exit code, origin⟩) s := by
  have hends := h.ending
  unfold runFor
  cases hrun : runEntry m fuel entry (State.initial sink) with
  | ok =>
    rw [Moment.ending, Activity.run, exec_bind_ok hrun] at hends
    refine ⟨fun _ hfault => (nomatch hfault), fun _ _ _ hfinished => .inl ?_⟩
    cases hfinished
    obtain ⟨v, hv, htype⟩ := hends.2 entry.returnType rfl
    cases hv
    exact htype
  | error halt =>
    rw [Moment.ending, Activity.run, exec_bind_error hrun] at hends
    cases halt with
    | outOfFuel => exact ⟨fun _ hfault => (nomatch hfault), fun _ _ _ hfinished => (nomatch hfinished)⟩
    | fault f =>
      obtain ⟨cause, origin⟩ := f
      cases cause with
      | exit =>
        refine ⟨fun _ hfault => (nomatch hfault), fun _ _ _ hfinished => .inr ?_⟩
        cases hfinished
        exact ⟨rfl, origin, rfl⟩
      | _ =>
        refine ⟨fun _ hfault => ?_, fun _ _ _ hfinished => (nomatch hfinished)⟩
        cases hfault
        exact hends.1

/-- **Type soundness.** Of files that are bound without errors where only the package `sys` is
known, in every run from any function of the lowered program: whenever something is started in the
run, and whenever it ends, all variables, elements and fields hold values of their types, where a
variable is known by its id; an expression or a call that ends with a value gives one of its type;
nothing ends with a fault of typing. So a run fails for other reasons only, and it finishes with a
value of the return type of its entry function, unless the program exits. -/
theorem type_soundness (files : List Syntax.Program) :
    let sys := Catalog.empty.withSys {}
    let build := bindFiles sys.1 sys.2 files
    let lowered := (build.program.lower.run build.ids).1
    build.errors = #[] → (lowered.vars.map (·.id)).Nodup ∧
      ∀ (mode : Mode) (entry : FunctionSymbol), build.catalog.HasFunction entry →
        ∀ (fuel : Nat) (sink : Sink),
          let m : Machine := ⟨lowered, build.catalog, mode⟩
          (∀ moment, m.Reaches fuel entry sink moment → moment.Sound m) ∧
            (∀ fault, (runFor m fuel entry sink).1 = .failed fault → fault.cause.ofTyping = false) ∧
            ∀ value code s, runFor m fuel entry sink = (.finished value code, s) →
              s.heap.typeOf? value = some entry.returnType ∨ value = .void ∧ ∃ origin,
                runEntry m fuel entry (State.initial sink) =
                  .error (.fault ⟨.exit code, origin⟩) s := by
  intro sys build lowered hclean
  have htyped : build.Typed sys.1 [] := typed_bindFiles formed_withSys sys.2 files
  have hshape : build.Shaped sys.1 sys.2 [] := shaped_bindFiles sys.1 sys.2 files
  have hmachine := htyped.machine hshape formed_withSys bare_withSys provided_withSys hclean
  refine ⟨(hmachine {}).distinct, fun mode entry hentry fuel sink => ?_⟩
  have hentry : (build.runSignatures sys.1).function entry := htyped.functions entry hentry
  have hsound {moment : Moment} (hreaches : Machine.Reaches ⟨lowered, build.catalog, mode⟩ fuel entry
      sink moment) : moment.Sound ⟨lowered, build.catalog, mode⟩ :=
    Machine.Reaches.sound (hmachine mode) hentry hreaches
  exact ⟨fun moment hreaches => hsound hreaches, (hsound .refl).outcome⟩

/-- Whether a run ends with an array. -/
def Outcome.isArray : Outcome → Bool
  | .finished (.array _) _ => true
  | _ => false

lemma Outcome.exists_of_isArray {outcome : Outcome} (h : outcome.isArray = true) :
    ∃ address code, outcome = .finished (.array address) code := by
  cases outcome with
  | finished value code => cases value with
    | array address => exact ⟨address, code, rfl⟩
    | _ => cases h
  | _ => cases h

theorem type_soundness_greeting :
    let sys := Catalog.empty.withSys {}
    let build := bindFiles sys.1 sys.2 [greeting]
    let m : Machine := ⟨(build.program.lower.run build.ids).1, build.catalog, {}⟩
    build.errors = #[] ∧ ∃ entry, build.catalog.HasFunction entry ∧ ∃ value code s,
      runFor m 40 entry {} = (.finished value code, s) ∧ s.heap.typeOf? value = some (.array .string) ∧
        Moment.Sound m ⟨40, .entry entry, State.initial {}⟩ := by
  have hruns : let sys := Catalog.empty.withSys {}
      let build := bindFiles sys.1 sys.2 [greeting]
      let lowered := (build.program.lower.run build.ids).1
      build.errors.size = 0 ∧ ∃ p ∈ build.catalog.packages, ∃ entry ∈ p.functions,
        entry.returnType = .array .string ∧
          (runFor ⟨lowered, build.catalog, {}⟩ 40 entry {}).1.isArray = true := by decide +kernel
  generalize [greeting] = files at hruns ⊢
  obtain ⟨hsize, p, hp, entry, hentry, hreturn, harray⟩ := hruns
  have hclean := Array.eq_empty_of_size_eq_zero hsize
  obtain ⟨-, hall⟩ := type_soundness files hclean
  obtain ⟨hmoments, -, hvalue⟩ := hall {} entry ⟨p, hp, hentry⟩ 40 {}
  obtain ⟨address, code, hrun⟩ := Outcome.exists_of_isArray harray
  refine ⟨hclean, entry, ⟨p, hp, hentry⟩, .array address, code, _, Prod.ext hrun rfl, ?_,
    hmoments _ .refl⟩
  rcases hvalue (.array address) code _ (Prod.ext hrun rfl) with htype | ⟨hvoid, -⟩
  · exact htype.trans (congrArg some hreturn)
  · cases hvoid

end Parcel
