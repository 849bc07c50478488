import Parcel.Proofs.Typing.State

/-!
# Typed runs

Typed code keeps states well typed, a typed expression gives a value of its type, and so does a call
of a function.
-/

namespace Parcel

open Code List

variable {types : List Ty} {values : List Value} {heap : Heap} {type τ σ : Ty} {v : Value}
  {es : List Expr}

/-! ### Operations -/

def FunctionSymbol.Fits (f : FunctionSymbol) (native : Native) : Prop :=
  f.params.map (·.type) = native.params.map (·.2) ∧ f.returnType = native.returnType

/-- The code of a machine is typed, and the functions that it calls are what they should be. -/
structure Machine.Typed (m : Machine) (sigs : Signatures) : Prop where
  builder : m.catalog.HasBuilder
  distinct : (m.program.vars.map (·.id)).Nodup
  vars : ∀ v, sigs.var v → v ∈ m.program.vars
  globals : ∀ v ∈ m.program.globals.flatMap declaredVars, v ∈ m.program.vars ∧ v.type.Formed
  formed : ∀ f, sigs.function f → f.Formed
  natives : ∀ f native, sigs.function f → f.kind = .native native →
    native.isMethod = false ∧ f.Fits native
  methods : ∀ type f, sigs.method type f → type = builderType ∧
    ∃ native, f.kind = .native native ∧ f.Fits native
  params : ∀ f, sigs.function f → f.kind = .interpreted → ∀ v ∈ f.params, v ∈ m.program.vars
  bodies : ∀ f file code, sigs.function f → f.kind = .interpreted →
    codeOf m.program f = .ok (file, code) → ∀ stmt ∈ code, stmt.OwnTyped sigs f.returnType
  groups : ∀ group ∈ m.program.globals, ∀ stmt ∈ group.stmts, stmt.OwnTyped sigs .void

abbrev AreA (types : List Ty) (values : List Value) (heap : Heap) : Prop :=
  List.Forall₂ (fun value type => heap.typeOf? value = some type) values types

lemma AreA.mono {heap' : Heap} (h : AreA types values heap) (hgrows : heap.Extends heap') :
    AreA types values heap' :=
  h.imp fun value type hvalue => hgrows value type hvalue

lemma areA_singleton (h : AreA [type] values heap) :
    ∃ v, values = [v] ∧ heap.typeOf? v = some type := by
  cases h with
  | @cons v _ _ _ hv hrest =>
    cases hrest
    exact ⟨v, rfl, hv⟩

lemma yields_elementAt {elements : Array Value} (h : ∀ v ∈ elements, heap.typeOf? v = some τ)
    (index : Int) : heap.Yields τ (elementAt elements index) := by
  unfold elementAt
  dsimp only
  split
  · exact rfl
  · split
    next hget => exact h _ (Array.mem_of_getElem? hget)
    · exact rfl

section Operations

variable {m : Machine} {sigs : Signatures} (h : m.Typed sigs) {results : List Ty} {base : Heap}
  {array value : Value}

lemma sound_recover (mode : Mode) {cause : FaultCause} (hcause : cause.ofTyping = false)
    (span : Span) (hv : base.typeOf? v = some type) :
    Sound m results base (recover mode cause span v) (IsA type) := by
  refine sound_get fun s hgrows _ => ?_
  dsimp only
  split
  · exact fun t ht => ⟨hcause, ht⟩
  · exact fun t ht => ⟨⟨ht.1.addRecovered _, ht.2⟩, ht.2 v type (hgrows v type hv)⟩

lemma sound_arrayAddress (hv : base.typeOf? v = some (.array τ)) :
    Sound m results base (arrayAddress v) fun address _ => v = .array address := by
  cases Heap.shape hv with
  | array => exact sound_pure fun _ _ => rfl

lemma sound_storeElement (harray : base.typeOf? array = some (.array τ))
    (hvalue : base.typeOf? value = some τ) (index : Int) (span : Span) :
    Sound m results base (storeElement m array index value span) (IsA τ) := by
  refine (sound_arrayAddress harray).bind fun address heap hgrows haddress => ?_
  subst haddress
  refine sound_get fun s hgrows' _ => ?_
  have hgrows := hgrows.trans hgrows'
  dsimp only
  split
  · refine sound_gives fun heap hlater htyped => ?_
    cases Heap.shape (hlater _ _ (hgrows _ _ harray)) with
    | array hget =>
      exact Heap.gives_setElement htyped hget (hlater _ _ (hgrows _ _ hvalue)) index.toNat
  · exact sound_recover m.mode rfl span (hgrows _ _ hvalue)

lemma sound_storeVar {v : Var} (hv : v ∈ m.program.vars) (hvalue : base.typeOf? value = some v.type)
    : Sound m results base (storeVar v value) Anything := by
  intro s hs
  cases hholds : s.holds v with
  | false =>
    rw [storeVar_not_holds hholds]
    exact ⟨rfl, hs⟩
  | true =>
    rw [storeVar_holds hholds]
    refine ⟨⟨hs.1.assign hv (hs.2 _ _ hvalue), ?_⟩, trivial⟩
    rw [State.heap_assign]
    exact hs.2

include h

lemma sound_default (htype : type.Formed) :
    Sound m results base (Exec.onHeap (·.default m.catalog type)) (IsA type) :=
  sound_gives fun _ _ htyped => Heap.gives_default h.builder htyped htype

lemma sound_orDefault (htype : type.Formed) {result : Except FaultCause Value}
    (hresult : base.Yields type result) (span : Span) :
    Sound m results base (orDefault m result type span) (IsA type) := by
  cases result with
  | ok v => exact sound_pure fun heap hgrows => hgrows v type hresult
  | error =>
    refine (sound_default h htype).bind fun placeholder heap _ hplaceholder => ?_
    exact sound_recover m.mode hresult span hplaceholder

lemma sound_loadElement (hτ : τ.Formed) (harray : base.typeOf? array = some (.array τ))
    (index : Int) (span : Span) :
    Sound m results base (loadElement m array index τ span) (IsA τ) := by
  refine (sound_arrayAddress harray).bind fun address heap hgrows haddress => ?_
  subst haddress
  refine sound_get fun s hgrows' htyped => ?_
  cases Heap.shape (hgrows' _ _ (hgrows _ _ harray)) with
  | @array _ _ elements hget =>
    have helements : (s.heap.elements? address).getD #[] = elements := by
      rw [Heap.elements?, hget]
      rfl
    rw [helements]
    exact sound_orDefault h hτ (yields_elementAt (htyped address _ hget) index) span

lemma sound_makeArray (hτ : τ.Formed) (length : Int) (span : Span) :
    Sound m results base (makeArray m length (.array τ) span) (IsA (.array τ)) := by
  unfold makeArray
  dsimp only [Ty.element?, Option.getD_some]
  split
  · refine Sound.bind (sound_gives fun heap _ htyped => Heap.gives_newArray htyped fun v hv =>
      absurd hv (Array.not_mem_empty v)) fun empty heap _ hempty => ?_
    exact sound_recover m.mode rfl span hempty
  · have hdefaults : Sound m results base (Exec.onHeap (·.defaults m.catalog τ length.toNat))
        fun elements heap => ∀ v ∈ elements, heap.typeOf? v = some τ :=
      sound_onHeap fun heap _ htyped => Heap.gives_addDefaults h.builder hτ length.toNat htyped
        fun v hv => absurd hv (Array.not_mem_empty v)
    refine hdefaults.bind fun elements heap _ helements => ?_
    exact sound_gives fun heap' hgrows htyped => Heap.gives_newArray htyped fun v hv =>
      hgrows v τ (helements v hv)

lemma sound_loadVar {v : Var} (hv : v ∈ m.program.vars) :
    Sound m results base (loadVar v) (IsA v.type) := by
  intro s hs
  cases hvalue : s.value? v with
  | none =>
    rw [loadVar_none hvalue]
    exact ⟨rfl, hs⟩
  | some value =>
    rw [loadVar_some hvalue]
    exact ⟨hs, hs.1.value? h.distinct hv hvalue⟩

end Operations

/-! ### Native functions -/

section Natives

variable {m : Machine} {results : List Ty} {base : Heap}

lemma sound_ask (transfer : Transfer) :
    Sound m results base (Exec.ask transfer) Anything :=
  fun _ hs => ⟨⟨hs.1.withSink _, hs.2⟩, trivial⟩

lemma sound_emit (text : String) : Sound m results base (Native.emit text) Anything := by
  unfold Native.emit
  split
  · exact sound_pure fun _ _ => trivial
  · refine (sound_ask _).bind fun refusal? _ _ _ => ?_
    cases refusal? with
    | none => exact sound_pure fun _ _ => trivial
    | some => exact sound_fail rfl

lemma sound_leave (code : Int) : Sound m results base (Native.leave code) (IsA .void) := by
  refine (sound_ask .flush).bind fun refusal? _ _ _ => ?_
  cases refusal? with
  | none | some reason => exact sound_fail rfl

lemma sound_onBuffer (hbuilder : m.catalog.HasBuilder) {receiver : Value}
    (hreceiver : base.typeOf? receiver = some builderType) (change : String → String)
    (result : String → Value) (hresult : ∀ heap text, IsA type (result text) heap) :
    Sound m results base (Native.onBuffer receiver change result) (IsA type) := by
  cases Heap.shape hreceiver with
  | @container address =>
    refine sound_onHeap fun heap hgrows htyped => ?_
    cases Heap.shape (hgrows _ _ hreceiver) with
    | container hget =>
      obtain ⟨hgrows', htyped'⟩ := Heap.setField_builder hbuilder htyped hget _
      exact ⟨hgrows', htyped', hresult _ _⟩

/-- **Native functions give values of their return type.** -/
theorem sound_native (hbuilder : m.catalog.HasBuilder) (native : Native) {arguments : List Value}
    (harguments : AreA (native.params.map (·.2)) arguments base) {receiver : Option Value}
    (hreceiver : native.isMethod = true → ∃ v ∈ receiver, base.typeOf? v = some builderType) :
    Sound m results base (native.invoke receiver arguments) (IsA native.returnType) := by
  cases native with
  | print =>
    obtain ⟨v, rfl, hv⟩ := areA_singleton harguments
    cases Heap.shape hv with
    | string text =>
      show Sound m results base
        (Native.emit text >>= fun _ => Native.emit "\n" >>= fun _ => pure Value.void) _
      exact (sound_emit text).bind fun _ _ _ _ => (sound_emit "\n").bind fun _ _ _ _ =>
        sound_pure fun _ _ => rfl
  | write =>
    obtain ⟨v, rfl, hv⟩ := areA_singleton harguments
    cases Heap.shape hv with
    | string text =>
      show Sound m results base (Native.emit text >>= fun _ => pure Value.void) _
      exact (sound_emit text).bind fun _ _ _ _ => sound_pure fun _ _ => rfl
  | exit =>
    obtain ⟨v, rfl, hv⟩ := areA_singleton harguments
    obtain ⟨n, rfl, -⟩ := Heap.exists_integer hv
    exact sound_leave n.val
  | sqrt =>
    obtain ⟨v, rfl, hv⟩ := areA_singleton harguments
    cases Heap.shape hv with
    | double => exact sound_pure fun _ _ => rfl
  | abs =>
    obtain ⟨v, rfl, hv⟩ := areA_singleton harguments
    obtain ⟨n, rfl, hwidth⟩ := Heap.exists_integer hv
    refine sound_ofExcept ?_
    show base.Yields .int (Native.absolute (.integer n))
    rw [Native.absolute, if_pos hwidth]
    exact rfl
  | builder =>
    exact sound_gives fun heap _ htyped => Heap.gives_newContainer htyped
      ((Heap.suits_builder hbuilder).mpr ⟨"", rfl⟩)
  | append =>
    obtain ⟨v, rfl, hv⟩ := areA_singleton harguments
    obtain ⟨r, rfl, hr⟩ := hreceiver rfl
    cases Heap.shape hv with
    | string text => exact sound_onBuffer hbuilder hr (· ++ text) (fun _ => .void) fun _ _ => rfl
  | build =>
    obtain ⟨r, rfl, hr⟩ := hreceiver rfl
    exact sound_onBuffer hbuilder hr id .string fun _ _ => rfl
  | length =>
    obtain ⟨r, rfl, hr⟩ := hreceiver rfl
    exact sound_onBuffer hbuilder hr id Native.lengthOf fun _ _ => rfl
  | clear =>
    obtain ⟨r, rfl, hr⟩ := hreceiver rfl
    exact sound_onBuffer hbuilder hr (fun _ => "") (fun _ => .void) fun _ _ => rfl

end Natives

/-! ### Expressions -/

/-- Calls give values of the return type, in whatever frames they are made. -/
structure Invoke.Sound (m : Machine) (sigs : Signatures) (invoke : Invoke) : Prop where
  function : ∀ {f : FunctionSymbol} {arguments : List Value} {base : Heap} (results : List Ty),
    sigs.function f → AreA (f.params.map (·.type)) arguments base →
    Parcel.Sound m results base (invoke f arguments none) (IsA f.returnType)
  method : ∀ {type : Ty} {f : FunctionSymbol} {arguments : List Value} {receiver : Value} {base : Heap}
    (results : List Ty), sigs.method type f → AreA (f.params.map (·.type)) arguments base →
    base.typeOf? receiver = some type →
    Parcel.Sound m results base (invoke f arguments (some receiver)) (IsA f.returnType)

lemma typeOf?_ofConstant {value : Constant} (h : value.Formed) (heap : Heap) :
    heap.typeOf? (.ofConstant value) = some value.type := by
  cases value with
  | int => exact congrArg (fun width => some (Ty.integer width)) h
  | _ => rfl

lemma bool_of_result?_and (h : BinaryOp.and.result? σ = some τ) : σ = .bool ∧ τ = .bool := by
  simp only [BinaryOp.result?] at h
  split at h
  next hσ => exact ⟨hσ, (Option.some.inj h).symm⟩
  · cases h

lemma bool_of_result?_or (h : BinaryOp.or.result? σ = some τ) : σ = .bool ∧ τ = .bool :=
  bool_of_result?_and h

lemma isA_of_areA (h : AreA (es.map fun _ => τ) values heap) (hv : v ∈ values) :
    heap.typeOf? v = some τ := by
  induction es generalizing values with
  | nil =>
    cases h
    cases hv
  | cons e es ih =>
    cases h with
    | cons hvalue hrest =>
      rcases mem_cons.mp hv with rfl | hv
      · exact hvalue
      · exact ih hrest hv

section Expressions

variable {m : Machine} {sigs : Signatures} {invoke : Invoke} {results : List Ty}

/-- A test of a truth value has no fault. -/
lemma Sound.test {β : Type} {post : β → Heap → Prop} {base : Heap} {c : Exec Value}
    (h : Sound m results base c (IsA .bool)) {next : Bool → Exec β}
    (hnext : ∀ taken heap, Sound m results heap (next taken) post) :
    Sound m results base (c >>= fun v => Exec.ofExcept v.asBool >>= next) post := by
  refine h.bind fun v heap _ hv => ?_
  cases Heap.shape hv with
  | bool => exact (sound_ofExcept_ok rfl).bind fun taken heap' _ _ => hnext taken heap'

/-- Expressions that give values of their types do so one after the other. -/
lemma sound_evalAll (hlength : es.length = types.length)
    (hes : ∀ p ∈ es.zip types, ∀ base, Sound m results base (eval m invoke p.1) (IsA p.2))
    (base : Heap) : Sound m results base (evalAll m invoke es) (AreA types) := by
  induction es generalizing types base with
  | nil =>
    obtain rfl := length_eq_zero_iff.mp hlength.symm
    exact sound_pure fun _ _ => .nil
  | cons e es ih =>
    cases types with
    | nil => cases hlength
    | cons =>
      rw [zip_cons_cons, forall_mem_cons] at hes
      refine (hes.1 base).bind fun value heap _ hvalue => ?_
      refine (ih (Nat.succ.inj hlength) hes.2 heap).bind fun values heap' hgrows hvalues => ?_
      exact sound_pure fun heap'' hgrows' =>
        .cons (hgrows' _ _ (hgrows _ _ hvalue)) (hvalues.mono hgrows')

/-- **Expressions give values of their type.** -/
theorem sound_eval (h : m.Typed sigs) (hinvoke : invoke.Sound m sigs) {e : Expr}
    (he : HasType sigs e τ) (base : Heap) : Sound m results base (eval m invoke e) (IsA τ) := by
  induction he generalizing base with
  | literal span hvalue => exact sound_pure fun heap _ => typeOf?_ofConstant hvalue heap
  | paren span _ ih => exact (ih base).placing span
  | name span hv => exact (sound_loadVar h (h.vars _ hv)).placing span
  | assignName span span' hv _ ih =>
    refine Sound.placing ((ih base).bind fun value heap _ hvalue => ?_) span'
    refine (sound_storeVar (h.vars _ hv) hvalue).bind fun _ heap' hgrows _ => ?_
    exact sound_pure fun heap'' hgrows' => hgrows' _ _ (hgrows _ _ hvalue)
  | assignIndex span span' _ _ _ iht ihi ihe =>
    refine Sound.placing ((iht base).bind fun array heap₁ _ harray => ?_) span'
    refine (ihi heap₁).bind fun index heap₂ hgrows₂ hindex => ?_
    obtain ⟨n, rfl, -⟩ := Heap.exists_integer hindex
    refine (sound_ofExcept_ok rfl).bind fun _ heap₃ hgrows₃ _ => ?_
    refine (ihe heap₃).bind fun value heap₄ hgrows₄ hvalue => ?_
    exact sound_storeElement (((hgrows₂.trans hgrows₃).trans hgrows₄) _ _ harray) hvalue _ span
  | unary span _ hop ih =>
    refine Sound.placing ((ih base).bind fun operand heap _ hoperand => ?_) span
    exact sound_ofExcept (Heap.yields_unary hoperand hop)
  | @binary left right op σ τ span _ _ hop hτ ihl ihr =>
    -- the right operand of the logical operators may not be needed
    have hlast (base : Heap) (hσ : σ = .bool) : Sound m results base (do
        let right ← eval m invoke right
        let right ← Exec.ofExcept right.asBool
        return .bool right) (IsA .bool) := by
      subst hσ
      exact (ihr base).test fun _ _ => sound_pure fun _ _ => rfl
    have hstrict : Sound m results base (do
        let left ← eval m invoke left
        let right ← eval m invoke right
        orDefault m (Value.binary op left right) τ span) (IsA τ) := by
      refine (ihl base).bind fun l heap₁ _ hl => ?_
      refine (ihr heap₁).bind fun r heap₂ hgrows hr => ?_
      exact sound_orDefault h hτ (Heap.yields_binary (hgrows _ _ hl) hr hop) span
    cases op with
    | and =>
      obtain ⟨rfl, rfl⟩ := bool_of_result?_and hop
      refine Sound.placing ((ihl base).test fun taken heap => ?_) span
      cases taken with
      | true => exact hlast heap rfl
      | false => exact sound_pure fun _ _ => rfl
    | or =>
      obtain ⟨rfl, rfl⟩ := bool_of_result?_or hop
      refine Sound.placing ((ihl base).test fun taken heap => ?_) span
      cases taken with
      | true => exact sound_pure fun _ _ => rfl
      | false => exact hlast heap rfl
    | _ => exact hstrict.placing span
  | call span hf hlength _ ih =>
    have hall := sound_evalAll (hlength.trans (length_map _).symm) (fun p hp => ih p hp) base
    exact Sound.placing (hall.bind fun arguments heap _ harguments =>
      hinvoke.function results hf harguments) span
  | methodCall span _ hf hlength _ ihr ih =>
    refine Sound.placing ((ihr base).bind fun receiver heap _ hreceiver => ?_) span
    have hall := sound_evalAll (hlength.trans (length_map _).symm) (fun p hp => ih p hp) heap
    exact hall.bind fun arguments heap' hgrows harguments =>
      hinvoke.method results hf harguments (hgrows _ _ hreceiver)
  | conversion span _ hτ ih =>
    refine Sound.placing ((ih base).bind fun operand heap _ _ => ?_) span
    exact sound_get fun s _ _ => sound_orDefault h hτ (Heap.yields_convert _ operand) span
  | makeLength span _ hτ ih =>
    refine Sound.placing ((ih base).bind fun length heap _ hlength => ?_) span
    obtain ⟨n, rfl, -⟩ := Heap.exists_integer hlength
    exact (sound_ofExcept_ok rfl).bind fun _ _ _ _ => sound_makeArray h hτ _ span
  | @makeElements elements τ span _ hτ ih =>
    have helements : ∀ p ∈ elements.zip (elements.map fun _ => τ), ∀ base,
        Sound m results base (eval m invoke p.1) (IsA p.2) := by
      intro p hp
      obtain ⟨he, hp⟩ := of_mem_zip hp
      obtain ⟨-, -, htype⟩ := mem_map.mp hp
      exact htype ▸ ih p.1 he
    have hall := sound_evalAll (length_map _).symm helements base
    refine Sound.placing (hall.bind fun values heap _ hvalues => ?_) span
    exact sound_gives fun heap' hgrows htyped => Heap.gives_newArray htyped fun v hv =>
      hgrows _ _ (isA_of_areA hvalues (mem_toArray.mp hv))
  | index span _ _ hτ iht ihi =>
    refine Sound.placing ((iht base).bind fun array heap₁ _ harray => ?_) span
    refine (ihi heap₁).bind fun index heap₂ hgrows₂ hindex => ?_
    obtain ⟨n, rfl, -⟩ := Heap.exists_integer hindex
    refine (sound_ofExcept_ok rfl).bind fun _ heap₃ hgrows₃ _ => ?_
    exact sound_loadElement h hτ ((hgrows₂.trans hgrows₃) _ _ harray) _ span

end Expressions

/-! ### Statements -/

section Statements

variable {m : Machine} {sigs : Signatures} {invoke : Invoke} {results : List Ty} {base : Heap}

lemma sound_modifyFrame {change : Frame → Frame}
    (hlocals : ∀ (frame : Frame) (heap : Heap), base.Extends heap →
      frame.locals.Typed m.program.vars heap → (change frame).locals.Typed m.program.vars heap)
    (hresult : ∀ (frame : Frame) (heap : Heap) (type : Ty), base.Extends heap → type ∈ results.head? →
      heap.typeOf? frame.result = some type → heap.typeOf? (change frame).result = some type) :
    Sound m results base (Exec.modifyFrame change) Anything := fun s hs =>
  ⟨⟨hs.1.modifyTop (fun frame => hlocals frame s.heap hs.2)
    fun frame type => hresult frame s.heap type hs.2, hs.2⟩, trivial⟩

lemma sound_jump (label : Label) : Sound m results base (jump label) Anything := by
  refine sound_get fun s _ _ => ?_
  split
  · exact sound_pure fun _ _ => trivial
  · exact sound_fail rfl

/-- **Statements keep states well typed.** -/
theorem sound_execute (h : m.Typed sigs) (hinvoke : invoke.Sound m sigs) {stmt : Stmt}
    (hstmt : stmt.OwnTyped sigs type) (base : Heap) :
    Sound m (type :: results) base (execute m invoke stmt) Anything := by
  have hdone {base : Heap} : Sound m (type :: results) base (pure none : Exec (Option Nat)) Anything :=
    sound_pure fun _ _ => trivial
  have hunlowered {base : Heap} : Sound m (type :: results) base (do
      let function := ((← get).stack.top?.map (·.function)).getD ""
      Exec.fail (.unlowered function) : Exec (Option Nat)) Anything :=
    sound_get fun _ _ _ => sound_fail rfl
  cases stmt with
  | declare v initializer =>
    cases initializer with
    | none =>
      refine (sound_default h hstmt.2).bind fun value heap _ hvalue => ?_
      exact (sound_storeVar (h.vars v hstmt.1) hvalue).bind fun _ _ _ _ => hdone
    | some =>
      refine (sound_eval h hinvoke hstmt.2 base).bind fun value heap _ hvalue => ?_
      exact (sound_storeVar (h.vars v hstmt.1) hvalue).bind fun _ _ _ _ => hdone
  | ret value =>
    cases value with
    | none =>
      refine Sound.bind (sound_modifyFrame ?_ ?_) fun _ _ _ _ => hdone
      · exact fun _ _ _ hlocals => hlocals
      · exact fun _ _ _ _ _ hresult => hresult
    | some =>
      refine (sound_eval h hinvoke hstmt base).bind fun value heap _ hvalue => ?_
      refine Sound.bind (sound_modifyFrame ?_ ?_) fun _ _ _ _ => hdone
      · exact fun _ _ _ hlocals => hlocals
      · intro frame heap' type' hgrows htype _
        obtain rfl : type = type' := Option.some.inj htype
        exact hgrows _ _ hvalue
  | expr =>
    obtain ⟨τ, he⟩ := hstmt
    exact (sound_eval h hinvoke he base).bind fun _ _ _ _ => hdone
  | label => exact hdone
  | goto label =>
    exact (sound_jump label).bind fun _ _ _ _ => sound_pure fun _ _ => trivial
  | gotoIf condition label =>
    refine (sound_eval h hinvoke hstmt base).test fun taken _ => ?_
    cases taken with
    | true => exact (sound_jump label).bind fun _ _ _ _ => sound_pure fun _ _ => trivial
    | false => exact hdone
  | delete v =>
    refine Sound.bind (sound_modifyFrame ?_ ?_) fun _ _ _ _ => hdone
    · exact fun _ _ _ hlocals => hlocals.erase v.id
    · exact fun _ _ _ _ _ hresult => hresult
  | approach v target =>
    obtain ⟨⟨hv, hvtype⟩, htarget, httype⟩ := hstmt
    refine (sound_loadVar h (h.vars v hv)).bind fun current heap₁ _ hcurrent => ?_
    obtain ⟨n, rfl, -⟩ := Heap.exists_integer (hvtype ▸ hcurrent)
    refine (sound_ofExcept_ok rfl).bind fun current heap₂ _ _ => ?_
    refine (sound_loadVar h (h.vars target htarget)).bind fun goal heap₃ _ hgoal => ?_
    obtain ⟨k, rfl, -⟩ := Heap.exists_integer (httype ▸ hgoal)
    refine (sound_ofExcept_ok rfl).bind fun goal heap₄ _ _ => ?_
    refine sound_get fun s _ _ => ?_
    refine (sound_ofExcept (Heap.yields_convert v.type _)).bind fun value heap₅ _ hvalue => ?_
    exact (sound_storeVar (h.vars v hv) hvalue).bind fun _ _ _ _ => hdone
  | whileLoop | forLoop | fromTo | loop | block | ifElse => exact hunlowered

end Statements

/-! ### Calls -/

section Calls

variable {m : Machine} {sigs : Signatures} {results : List Ty} {base : Heap}

lemma sound_withFrame (frame : Frame) {action : Exec Unit}
    (hlocals : frame.locals.Typed m.program.vars base)
    (hresult : base.typeOf? frame.result = some type)
    (haction : Sound m (type :: results) base action Anything) :
    Sound m results base (withFrame frame action) fun frame heap =>
      ∃ top, frame = some top ∧ heap.typeOf? top.result = some type := by
  intro s hs
  have hpushed := hs.1.push (hlocals.mono hs.2) (hs.2 _ _ hresult)
  have hends := haction (s.onStack (·.push frame)) ⟨hpushed, hs.2⟩
  unfold withFrame
  generalize action (s.onStack (·.push frame)) = result at hends ⊢
  match result with
  | .ok _ t =>
    obtain ⟨htyped, top, htop, hvalue⟩ := hends.1.1.pop
    exact ⟨⟨htyped, hends.1.2⟩, top, htop, hvalue⟩
  | .error (.fault f) t => exact ⟨hends.1, hends.2.1.pop.1, hends.2.2⟩
  | .error .outOfFuel t => trivial

lemma ofTyping_of_codeOf {p : Program} {f : FunctionSymbol} {cause : FaultCause}
    (h : codeOf p f = .error cause) : cause.ofTyping = false := by
  unfold codeOf at h
  split at h
  · cases h
  · cases h
    rfl
  · cases h
    rfl

lemma sound_callWith (h : m.Typed sigs) {f : FunctionSymbol} (hf : sigs.function f)
    {arguments : List Value} (harguments : AreA (f.params.map (·.type)) arguments base)
    {run : Array Stmt → Exec Unit}
    (hrun : ∀ code : Array Stmt, (∀ stmt ∈ code, stmt.OwnTyped sigs f.returnType) → ∀ base,
      Sound m (f.returnType :: results) base (run code) Anything) :
    Sound m results base (callWith m run f arguments none) (IsA f.returnType) := by
  unfold callWith
  split
  next native hkind =>
    obtain ⟨hmethod, hparams, hreturn⟩ := h.natives f native hf hkind
    rw [hreturn]
    rw [hparams] at harguments
    refine sound_native h.builder native harguments fun hm => ?_
    rw [hmethod] at hm
    cases hm
  next hkind =>
    refine sound_get fun s hgrows _ => ?_
    dsimp only
    split
    · exact sound_fail rfl
    · cases hfound : codeOf m.program f with
      | error => exact sound_fail (ofTyping_of_codeOf hfound)
      | ok found =>
        obtain ⟨file, code⟩ := found
        refine (sound_ofExcept_ok rfl).bind fun _ heap₁ hgrows₁ hpair => ?_
        subst hpair
        refine (sound_default h (h.formed f hf).result).bind fun result heap₂ hgrows₂ hresult => ?_
        have harguments := harguments.mono ((hgrows.trans hgrows₁).trans hgrows₂)
        have hframe := sound_withFrame
          (Frame.enter f.qualifiedName file code (bindParams f.params arguments) result)
          (Store.typed_bindParams (h.params f hf hkind) harguments) hresult
          (hrun code (h.bodies f file code hf hkind hfound) heap₂)
        rw [atDepth_eq]
        refine hframe.bind fun frame heap₃ _ htop => ?_
        obtain ⟨top, rfl, htop⟩ := htop
        exact sound_pure fun heap₄ hgrows₄ => hgrows₄ _ _ htop

/-- **Runs of typed code keep states well typed** if the calls in them are sound. -/
theorem sound_runCode (h : m.Typed sigs) (fuel : Nat)
    (hinvoke : ∀ k < fuel, (call m k).Sound m sigs) {code : Array Stmt}
    (hcode : ∀ stmt ∈ code, stmt.OwnTyped sigs type) (base : Heap) :
    Sound m (type :: results) base (runCode m fuel code) Anything := by
  induction fuel generalizing base with
  | zero => exact fun s _ => trivial
  | succ fuel ih =>
    rw [runCode]
    refine sound_get fun s _ _ => ?_
    split
    next frame _ =>
      split
      · exact sound_pure fun _ _ => trivial
      · split
        next stmt hstmt =>
          have hstep : Sound m (type :: results) s.heap (execute m (call m fuel) stmt) Anything :=
            sound_execute h (hinvoke fuel (Nat.lt_succ_self fuel))
              (hcode stmt (Array.mem_of_getElem? hstmt)) s.heap
          refine hstep.bind fun next heap _ _ => ?_
          refine Sound.bind (sound_modifyFrame ?_ ?_) fun _ heap' _ _ => ?_
          · exact fun _ _ _ hlocals => hlocals
          · exact fun _ _ _ _ _ hresult => hresult
          · exact ih (fun k hk => hinvoke k (Nat.lt_succ_of_lt hk)) heap'
        · exact sound_pure fun _ _ => trivial
    · exact sound_pure fun _ _ => trivial

/-- **Calls give values of the return type.** -/
theorem sound_call (h : m.Typed sigs) (fuel : Nat) : (call m fuel).Sound m sigs := by
  induction fuel using Nat.strongRecOn with
  | ind fuel ih =>
    refine ⟨fun results hf harguments => ?_, fun results hf harguments hreceiver => ?_⟩
    · exact sound_callWith h hf harguments fun code hcode base => sound_runCode h fuel ih hcode base
    · obtain ⟨rfl, native, hkind, hparams, hreturn⟩ := h.methods _ _ hf
      rw [hparams] at harguments
      rw [hreturn, call, callWith, hkind]
      exact sound_native h.builder native harguments fun _ => ⟨_, rfl, hreceiver⟩

/-! ### Whole runs -/

lemma sound_forM {α : Type} {l : List α} {action : α → Exec Unit}
    (hl : ∀ a ∈ l, ∀ base, Sound m results base (action a) Anything) (base : Heap) :
    Sound m results base (l.forM action) Anything := by
  induction l generalizing base with
  | nil => exact sound_pure fun _ _ => trivial
  | cons a l ih =>
    obtain ⟨ha, hl⟩ := forall_mem_cons.mp hl
    exact (ha base).bind fun _ heap _ _ => ih hl heap

lemma sound_setDefault (h : m.Typed sigs) {v : Var}
    (hv : v ∈ m.program.globals.flatMap declaredVars) (base : Heap) :
    Sound m results base (setDefault m v) Anything := by
  obtain ⟨hmem, hformed⟩ := h.globals v hv
  refine (sound_default h hformed).bind fun value heap _ hvalue => ?_
  exact fun s hs => ⟨⟨hs.1.onGlobals hmem (hs.2 _ _ hvalue), hs.2⟩, trivial⟩

lemma sound_runGroup (h : m.Typed sigs) (fuel : Nat) {group : GlobalGroup}
    (hgroup : group ∈ m.program.globals) (base : Heap) :
    Sound m results base (runGroup m fuel group) Anything := by
  have hcode : ∀ stmt ∈ group.stmts.toArray, stmt.OwnTyped sigs .void :=
    fun stmt hstmt => h.groups group hgroup stmt (mem_toArray.mp hstmt)
  have hrun : Sound m (.void :: results) base (runCode m fuel group.stmts.toArray) Anything :=
    sound_runCode h fuel (fun k _ => sound_call h k) hcode base
  have hframe := sound_withFrame
    (Frame.enter ("<globals> " ++ group.package) group.file group.stmts.toArray [] .void)
    (forall_mem_nil _) rfl hrun
  exact hframe.bind fun _ _ _ _ => sound_pure fun _ _ => trivial

lemma sound_runGlobals (h : m.Typed sigs) (fuel : Nat) (entry : String) (base : Heap) :
    Sound m results base (runGlobals m fuel entry) Anything := by
  refine Sound.bind (sound_forM (fun v hv base => sound_setDefault h hv base) base)
    fun _ heap _ _ => ?_
  refine sound_forM (fun package _ base => sound_forM (fun group hgroup base => ?_) base) heap
  exact sound_runGroup h fuel (mem_filter.mp hgroup).1 base

lemma sound_defaults (h : m.Typed sigs) {params : List Var} (hparams : ∀ v ∈ params, v.type.Formed)
    (base : Heap) : Sound m results base
      (params.mapM fun v => Exec.onHeap (·.default m.catalog v.type)) (AreA (params.map (·.type))) := by
  induction params generalizing base with
  | nil => exact sound_pure fun _ _ => .nil
  | cons v params ih =>
    obtain ⟨hv, hparams⟩ := forall_mem_cons.mp hparams
    rw [mapM_cons]
    refine (sound_default h hv).bind fun value heap _ hvalue => ?_
    refine (ih hparams heap).bind fun values heap' hgrows hvalues => ?_
    exact sound_pure fun heap'' hgrows' =>
      .cons (hgrows' _ _ (hgrows _ _ hvalue)) (hvalues.mono hgrows')

/-- **Whole runs give values of the return type** of the entry function. -/
theorem sound_runEntry (h : m.Typed sigs) (fuel : Nat) {entry : FunctionSymbol}
    (hentry : sigs.function entry) (base : Heap) :
    Sound m results base (runEntry m fuel entry) (IsA entry.returnType) := by
  refine (sound_runGlobals h fuel entry.package base).bind fun _ heap _ _ => ?_
  refine (sound_defaults h (h.formed entry hentry).params heap).bind fun arguments heap' _ hargs => ?_
  exact (sound_call h fuel).function results hentry hargs

end Calls

end Parcel
