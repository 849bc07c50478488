import Parcel.Machine.Run
import Parcel.Proofs.Binding.Renaming
import Parcel.Proofs.Code.Scoped

/-!
# Computations that follow each other

Two computations on related states agree if they end with the same value or the same fault, in
related states again. The second one may need more fuel than the first, so it stands for a family of
computations that settles. What is shown here once of expressions serves for every relation under
which variables are read and stored alike.
-/

namespace Parcel

open Code List

variable {cause : FaultCause} {v : Var} {α β : Type} {s s' s₁ : State} (op : BinaryOp)

/-- Results with the same value, or with the same fault of an allowed cause, in related states. -/
inductive Agrees {α : Type} (R : State → State → Prop) (allowed : FaultCause → Prop) :
    Exec.Result α → Exec.Result α → Prop
  | ok (a : α) {s t} (h : R s t) : Agrees R allowed (.ok a s) (.ok a t)
  | fault {f s t} (hcause : allowed f.cause) (h : R s t) :
    Agrees R allowed (.error (.fault f) s) (.error (.fault f) t)

/-- From related states the family ends as the computation does once it has enough fuel, unless the
computation runs out of fuel itself. -/
def Follows {α : Type} (R : State → State → Prop) (allowed : FaultCause → Prop) (c : Exec α)
    (c' : Nat → Exec α) : Prop :=
  ∀ s t, R s t → (∃ s', c s = .error .outOfFuel s') ∨
    ∃ r, Agrees R allowed (c s) r ∧ ∃ enough, ∀ k, enough ≤ k → c' k t = r

lemma exec_bind_ok {c : Exec α} {a : α} (h : c s = .ok a s') (next : α → Exec β) :
    (c >>= next) s = next a s' := by
  show EStateM.bind c next s = _
  rw [EStateM.bind, h]

lemma exec_bind_error {c : Exec α} {e : Halt} (h : c s = .error e s') (next : α → Exec β) :
    (c >>= next) s = .error e s' := by
  show EStateM.bind c next s = _
  rw [EStateM.bind, h]

lemma exists_of_exec_bind_ok {c : Exec α} {next : α → Exec β} {b : β}
    (h : (c >>= next) s = .ok b s') : ∃ a s₁, c s = .ok a s₁ ∧ next a s₁ = .ok b s' := by
  cases hc : c s with
  | ok a s₁ => exact ⟨a, s₁, rfl, by rwa [exec_bind_ok hc] at h⟩
  | error =>
    rw [exec_bind_error hc] at h
    cases h

lemma withFrame_ok {frame : Frame} {action : Exec Unit}
    (h : action (s.onStack (·.push frame)) = .ok () s₁) :
    withFrame frame action s = .ok s₁.stack.top? (s₁.onStack Stack.pop) := by
  rw [withFrame, h]

lemma withFrame_error {frame : Frame} {action : Exec Unit} {e : Halt}
    (h : action (s.onStack (·.push frame)) = .error e s₁) :
    withFrame frame action s = .error e (s₁.onStack Stack.pop) := by
  rw [withFrame, h]

section Rules

variable {α β : Type} {R : State → State → Prop} {allowed : FaultCause → Prop}

variable {c : Exec α} {next : α → Exec β} {c' : Nat → Exec α} {next' : Nat → α → Exec β}

/-- Without fuel it is enough that the results agree. -/
lemma Follows.of_agrees {c' : Exec α} (h : ∀ s t, R s t → Agrees R allowed (c s) (c' t)) :
    Follows R allowed c fun _ => c' :=
  fun s t hR => .inr ⟨c' t, h s t hR, 0, fun _ _ => rfl⟩

lemma follows_pure (a : α) : Follows R allowed (pure a) fun _ => pure a :=
  .of_agrees fun _ _ hR => .ok a hR

lemma follows_fail (h : allowed cause) :
    Follows R allowed (Exec.fail cause : Exec α) fun _ => Exec.fail cause :=
  .of_agrees fun _ _ hR => .fault h hR

/-- One computation after the other, where the second one is known to start with a result of the
first one. -/
lemma Follows.bind_result (hc : Follows R allowed c c')
    (hnext : ∀ a s s', c s = .ok a s' → Follows R allowed (next a) fun k => next' k a) :
    Follows R allowed (c >>= next) fun k => c' k >>= next' k := by
  intro s t hR
  rcases hc s t hR with ⟨s', hfuel⟩ | ⟨r, hagree, enough, hk⟩
  · exact .inl ⟨s', exec_bind_error hfuel next⟩
  · generalize hcs : c s = result at hagree
    cases hagree with
    | @ok a s₁ t₁ hR₁ =>
      rw [exec_bind_ok hcs]
      rcases hnext a s s₁ hcs s₁ t₁ hR₁ with hfuel | ⟨r', hagree', enough', hk'⟩
      · exact .inl hfuel
      · refine .inr ⟨r', hagree', max enough enough', fun k hle => ?_⟩
        refine (exec_bind_ok (hk k (Nat.le_trans (Nat.le_max_left _ _) hle)) _).trans ?_
        exact hk' k (Nat.le_trans (Nat.le_max_right _ _) hle)
    | @fault f s₁ t₁ hcause hR₁ =>
      rw [exec_bind_error hcs]
      exact .inr ⟨.error (.fault f) t₁, .fault hcause hR₁, enough,
        fun k hle => exec_bind_error (hk k hle) _⟩

lemma Follows.bind (hc : Follows R allowed c c')
    (hnext : ∀ a, Follows R allowed (next a) fun k => next' k a) :
    Follows R allowed (c >>= next) fun k => c' k >>= next' k :=
  hc.bind_result fun a _ _ _ => hnext a

lemma follows_ofExcept {result : Except FaultCause α}
    (h : ∀ cause, result = .error cause → allowed cause) :
    Follows R allowed (Exec.ofExcept result) fun _ => Exec.ofExcept result := by
  cases result with
  | ok a => exact follows_pure a
  | error cause => exact follows_fail (h cause rfl)

end Rules

/-! ### Variables of states -/

/-- The value of a variable. -/
def State.value? (s : State) (v : Var) : Option Value :=
  if v.isGlobal then s.globals.get? v.id else s.stack.top?.bind (·.locals.get? v.id)

def State.assign (s : State) (v : Var) (value : Value) : State :=
  if v.isGlobal then s.onGlobals (·.set v.id value)
  else s.onStack (·.modifyTop fun frame => { frame with locals := frame.locals.set v.id value })

/-- Whether a variable can be given a value. -/
def State.holds (s : State) (v : Var) : Bool :=
  v.isGlobal || s.stack.top?.isSome

lemma loadVar_apply (v : Var) (s : State) :
    loadVar v s = (match s.value? v with
      | some value => (pure value : Exec Value)
      | none => Exec.fail (.unresolvedVariable v.name)) s := rfl

lemma loadVar_some {value : Value} (h : s.value? v = some value) : loadVar v s = .ok value s := by
  rw [loadVar_apply, h]
  rfl

lemma loadVar_none (h : s.value? v = none) :
    loadVar v s = .error (.fault ⟨.unresolvedVariable v.name, none⟩) s := by
  rw [loadVar_apply, h]
  rfl

lemma storeVar_holds (h : s.holds v = true) (value : Value) :
    storeVar v value s = .ok () (s.assign v value) := by
  unfold storeVar State.assign
  split
  next hv => rfl
  next hv =>
    have htop : s.stack.top?.isSome = true := by simpa [State.holds, hv] using h
    rw [exec_bind_ok (show (get : Exec State) s = .ok s s from rfl), if_pos htop]
    rfl

lemma storeVar_not_holds (h : s.holds v = false) (value : Value) :
    storeVar v value s = .error (.fault ⟨.unresolvedVariable v.name, none⟩) s := by
  obtain ⟨hv, htop⟩ := Bool.or_eq_false_iff.mp h
  unfold storeVar
  rw [hv, if_neg Bool.false_ne_true,
    exec_bind_ok (show (get : Exec State) s = .ok s s from rfl), htop, if_neg Bool.false_ne_true]
  rfl

section Placing

variable {α : Type} {c : Exec α} {s s' : State} {span : Span}

lemma placing_ok {a : α} (h : c s = .ok a s') : placing span c s = .ok a s' := by
  simp only [placing, h]

lemma placing_fault {f : Fault} (h : c s = .error (.fault f) s') :
    placing span c s = .error (.fault (f.placed ⟨span, s'.file⟩)) s' := by
  simp only [placing, h]

lemma placing_outOfFuel (h : c s = .error .outOfFuel s') :
    placing span c s = .error .outOfFuel s' := by
  simp only [placing, h]

end Placing

lemma onHeap_run (f : Heap → α × Heap) (s : State) :
    Exec.onHeap f s = .ok (f s.heap).1 { s with heap := (f s.heap).2 } := rfl

lemma ask_run (transfer : Transfer) (s : State) : Exec.ask transfer s =
    .ok (s.sink.ask transfer).1 { s with sink := (s.sink.ask transfer).2 } := rfl

lemma get_run (s : State) : (get : Exec State) s = .ok s s := rfl

/-! ### Causes of operations -/

/-- Whether a cause is one of operations on values and of native functions, not of something that is
looked up or called. -/
def FaultCause.ofOperation : FaultCause → Bool
  | .indexOutOfBounds _ _ | .conversionFailed _ _ | .divisionByZero | .negativeLength _
  | .native _ | .unresolvedNode | .operandMismatch _ _ | .exit _ => true
  | .stackOverflow _ | .unresolvedVariable _ | .unresolvedLabel _ | .unresolvedFunction _
  | .unlowered _ => false

def Operational {α : Type} (result : Except FaultCause α) : Prop :=
  ∀ cause, result = .error cause → cause.ofOperation = true

lemma operational_ok (a : α) : Operational (.ok a) :=
  fun _ h => nomatch h

lemma operational_error (h : cause.ofOperation = true) :
    Operational (.error cause : Except FaultCause α) := by
  rintro _ ⟨⟩
  exact h

lemma operational_asBool (v : Value) : Operational v.asBool := by
  unfold Value.asBool
  split
  · exact operational_ok _
  · exact operational_error rfl

lemma operational_asInteger (v : Value) : Operational v.asInteger := by
  unfold Value.asInteger
  split
  · exact operational_ok _
  · exact operational_error rfl

lemma operational_unary (op : UnaryOp) (v : Value) : Operational (v.unary op) := by
  unfold Value.unary
  split
  all_goals first | exact operational_ok _ | exact operational_error rfl

lemma operational_compareNumbers (equal less greater : Bool) :
    Operational (Value.compareNumbers op equal less greater) := by
  unfold Value.compareNumbers
  split
  · exact operational_ok _
  · exact operational_error rfl

lemma operational_compareEquality (equal : Bool) :
    Operational (Value.compareEquality op equal) := by
  unfold Value.compareEquality
  split
  · exact operational_ok _
  · exact operational_ok _
  · exact operational_error rfl

lemma operational_integerBinary (width : Width) (a b : Int) :
    Operational (Value.integerBinary op width a b) := by
  unfold Value.integerBinary
  split
  · split
    · exact operational_error rfl
    · exact operational_ok _
  · exact operational_compareNumbers _ _ _ _

lemma operational_binary (left right : Value) : Operational (Value.binary op left right) := by
  unfold Value.binary
  split
  · split
    · exact operational_integerBinary _ _ _ _
    · exact operational_error rfl
  · unfold Value.floatBinary
    split
    all_goals first | exact operational_ok _ | exact operational_compareNumbers _ _ _ _
  · unfold Value.doubleBinary
    split
    all_goals first | exact operational_ok _ | exact operational_compareNumbers _ _ _ _
  · unfold Value.boolBinary
    split
    all_goals first | exact operational_ok _ | exact operational_compareEquality _ _
  · unfold Value.stringBinary
    split
    all_goals first | exact operational_ok _ | exact operational_compareEquality _ _
  · exact operational_compareEquality _ _
  · exact operational_compareEquality _ _
  · exact operational_error rfl

lemma operational_convert (heap : Heap) (type : Ty) (v : Value) :
    Operational (heap.convert type v) := by
  unfold Heap.convert
  split
  · exact operational_ok _
  · split
    · exact operational_ok _
    · exact operational_error rfl

lemma operational_elementAt (elements : Array Value) (index : Int) :
    Operational (elementAt elements index) := by
  unfold elementAt
  dsimp only
  split
  · exact operational_error rfl
  · split
    · exact operational_ok _
    · exact operational_error rfl

lemma Operational.bind {result : Except FaultCause α} {f : α → Except FaultCause β}
    (h : Operational result) (hf : ∀ a, Operational (f a)) : Operational (result >>= f) := by
  cases result with
  | ok a => exact hf a
  | error cause => exact operational_error (h cause rfl)

lemma operational_argument (arguments : List Value) (index : Nat) :
    Operational (Native.argument arguments index) := by
  unfold Native.argument
  split
  · exact operational_ok _
  · exact operational_error rfl

lemma operational_textArgument (arguments : List Value) :
    Operational (Native.textArgument arguments) := by
  refine (operational_argument arguments 0).bind fun v => ?_
  unfold Value.asString
  split
  · exact operational_ok _
  · exact operational_error rfl

lemma operational_squareRoot (v : Value) : Operational (Native.squareRoot v) := by
  unfold Native.squareRoot
  split
  · exact operational_ok _
  · exact operational_error rfl

lemma operational_absolute (v : Value) : Operational (Native.absolute v) := by
  unfold Native.absolute
  split
  · split
    · exact operational_ok _
    · exact operational_error rfl
  · exact operational_error rfl

def Machine.withProgram (m : Machine) (program : Program) : Machine :=
  { m with program }

lemma length_evalAll {m : Machine} {invoke : Invoke} {es : List Expr} {values : List Value}
    (h : evalAll m invoke es s = .ok values s') : values.length = es.length := by
  induction es generalizing s s' values with
  | nil =>
    cases h
    rfl
  | cons e es ih =>
    obtain ⟨value, s₁, -, h⟩ := exists_of_exec_bind_ok h
    obtain ⟨rest, s₂, hrest, h⟩ := exists_of_exec_bind_ok h
    cases h
    rw [length_cons, length_cons, ih hrest]

/-! ### Expressions side by side -/

/-- A relation between computations of a machine and families of computations of another one, which
may have other ids: the steps of the evaluation of expressions have it, if every variable that they
touch may be touched, and it passes from parts to the whole. -/
structure Compatible (ρ : Renaming) (m m' : Machine) (touches : Access → Prop)
    (P : ∀ {α : Type}, Exec α → (Nat → Exec α) → Prop) : Prop where
  catalog : m'.catalog = m.catalog
  pure : ∀ {α : Type} (a : α), P (pure a) fun _ => pure a
  fail : ∀ {α : Type} {cause : FaultCause}, cause.ofOperation = true →
    P (Exec.fail cause : Exec α) fun _ => Exec.fail cause
  bind : ∀ {α β : Type} {c : Exec α} {c' : Nat → Exec α} {next : α → Exec β}
    {next' : Nat → α → Exec β}, P c c' → (∀ a, P (next a) fun k => next' k a) →
    P (c >>= next) fun k => c' k >>= next' k
  get : ∀ {α : Type} {next : State → Exec α} {next' : Nat → State → Exec α},
    (∀ s t, s.heap = t.heap → P (next s) fun k => next' k t) →
    P (get >>= next) fun k => get >>= next' k
  placing : ∀ {α : Type} {c : Exec α} {c' : Nat → Exec α} (span : Span), P c c' →
    P (placing span c) fun k => placing span (c' k)
  onHeap : ∀ {α : Type} (f : Heap → α × Heap), P (Exec.onHeap f) fun _ => Exec.onHeap f
  ask : ∀ transfer : Transfer, P (Exec.ask transfer) fun _ => Exec.ask transfer
  loadVar : ∀ {v : Var}, touches (.read v) → P (loadVar v) fun _ => loadVar (v.rename ρ)
  storeVar : ∀ {v : Var} (value : Value), touches (.write v) →
    P (storeVar v value) fun _ => storeVar (v.rename ρ) value
  recover : ∀ {cause : FaultCause} (span : Span) (placeholder : Value), cause.ofOperation = true →
    P (recover m.mode cause span placeholder) fun _ => recover m'.mode cause span placeholder

namespace Compatible

variable {ρ : Renaming} {m m' : Machine} {touches : Access → Prop}
  {P : ∀ {α : Type}, Exec α → (Nat → Exec α) → Prop} (h : Compatible ρ m m' touches P)
include h

lemma ofExcept {α : Type} {result : Except FaultCause α} (hresult : Operational result) :
    P (Exec.ofExcept result) fun _ => Exec.ofExcept result := by
  cases result with
  | ok a => exact h.pure a
  | error cause => exact h.fail (hresult cause rfl)

lemma orDefault {result : Except FaultCause Value} (hresult : Operational result) (type : Ty)
    (span : Span) : P (orDefault m result type span) fun _ => orDefault m' result type span := by
  cases result with
  | ok value => exact h.pure value
  | error cause =>
    refine h.bind ?_ fun placeholder => h.recover span placeholder (hresult cause rfl)
    rw [h.catalog]
    exact h.onHeap _

lemma arrayAddress (v : Value) : P (arrayAddress v) fun _ => arrayAddress v := by
  unfold Parcel.arrayAddress
  split
  · exact h.pure _
  · exact h.fail rfl

lemma loadElement (array : Value) (index : Int) (type : Ty) (span : Span) :
    P (loadElement m array index type span) fun _ => loadElement m' array index type span := by
  refine h.bind (h.arrayAddress array) fun address => h.get fun s t hheap => ?_
  rw [← hheap]
  exact h.orDefault (operational_elementAt _ index) type span

lemma storeElement (array : Value) (index : Int) (value : Value) (span : Span) :
    P (storeElement m array index value span) fun _ => storeElement m' array index value span := by
  refine h.bind (h.arrayAddress array) fun address => h.get fun s t hheap => ?_
  rw [← hheap]
  dsimp only
  split
  · exact h.onHeap _
  · exact h.recover span value rfl

lemma makeArray (length : Int) (type : Ty) (span : Span) :
    P (makeArray m length type span) fun _ => makeArray m' length type span := by
  unfold Parcel.makeArray
  rw [h.catalog]
  dsimp only
  split
  · exact h.bind (h.onHeap _) fun empty => h.recover span empty rfl
  · exact h.bind (h.onHeap _) fun _ => h.onHeap _

/-! ### Native functions -/

lemma nativeEmit (text : String) : P (Native.emit text) fun _ => Native.emit text := by
  unfold Native.emit
  split
  · exact h.pure ()
  · refine h.bind (h.ask (.write text)) fun refusal? => ?_
    cases refusal? with
    | none => exact h.pure ()
    | some => exact h.fail rfl

lemma onBuffer (receiver : Value) (change : String → String) (result : String → Value) :
    P (Native.onBuffer receiver change result) fun _ => Native.onBuffer receiver change result := by
  unfold Native.onBuffer
  split
  · exact h.onHeap _
  · exact h.fail rfl

lemma onReceiver (receiver : Option Value) {method : Value → Exec Value}
    (hmethod : ∀ v, P (method v) fun _ => method v) :
    P (Native.onReceiver receiver method) fun _ => Native.onReceiver receiver method := by
  cases receiver with
  | none => exact h.fail rfl
  | some v => exact hmethod v

/-- **Native functions** are related to themselves. -/
theorem native (native : Native) (receiver : Option Value) (arguments : List Value) :
    P (native.invoke receiver arguments) fun _ => native.invoke receiver arguments := by
  have htext := h.ofExcept (operational_textArgument arguments)
  have hfirst := operational_argument arguments 0
  cases native with
  | print =>
    exact h.bind htext fun text => h.bind (h.nativeEmit text) fun _ =>
      h.bind (h.nativeEmit "\n") fun _ => h.pure _
  | write => exact h.bind htext fun text => h.bind (h.nativeEmit text) fun _ => h.pure _
  | exit =>
    refine h.bind (h.ofExcept (hfirst.bind operational_asInteger)) fun code =>
      h.bind (h.ask .flush) fun refusal? => ?_
    cases refusal? with
    | none | some reason => exact h.fail rfl
  | sqrt => exact h.ofExcept (hfirst.bind operational_squareRoot)
  | abs => exact h.ofExcept (hfirst.bind operational_absolute)
  | builder => exact h.onHeap _
  | append => exact h.onReceiver receiver fun v => h.bind htext fun _ => h.onBuffer v _ _
  | build | length | clear => exact h.onReceiver receiver fun v => h.onBuffer v _ _

/-! ### Expressions -/

section Calls

variable {invoke : Invoke} {invoke' : Nat → Invoke}
  (hcall : ∀ (f : FunctionSymbol) (es : List Expr) (receiver : Option Value),
    touches (.call f es.length) →
    P (evalAll m invoke es) (fun k => evalAll m' (invoke' k) (renameEach ρ es)) →
    P (evalAll m invoke es >>= (invoke f · receiver)) fun k =>
      evalAll m' (invoke' k) (renameEach ρ es) >>= (invoke' k (f.rename ρ) · receiver))
include hcall

-- arguments depend on calls through the expressions that they are
set_option linter.unusedSectionVars false in
mutual

/-- **Expressions** are related to themselves if the calls in them are and the variables that they
touch may be touched. -/
theorem eval (e : Expr) (he : ∀ a ∈ e.accesses, touches a) :
    P (eval m invoke e) fun k => eval m' (invoke' k) (e.rename ρ) := by
  cases e with
  | literal => exact h.pure _
  | paren inner span => exact h.placing span (eval inner he)
  | name v span => exact h.placing span (h.loadVar (he _ mem_cons_self))
  | assign target value span =>
    cases target with
    | name =>
      exact h.placing span (h.bind (eval value fun a ha => he a (mem_append_left _ ha))
        fun value => h.bind (h.storeVar value (he _ (mem_append_right _ mem_cons_self)))
          fun _ => h.pure value)
    | index array index type targetSpan =>
      have harray := eval array fun a ha => he a (mem_append_left _ (mem_append_left _ ha))
      have hindex := eval index fun a ha =>
        he a (mem_append_left _ (mem_append_right _ ha))
      have hvalue := eval value fun a ha => he a (mem_append_right _ ha)
      exact h.placing span (h.bind harray fun array => h.bind hindex fun index =>
        h.bind (h.ofExcept (operational_asInteger index)) fun index => h.bind hvalue fun value =>
          h.storeElement array index value targetSpan)
    | _ => exact h.placing span (h.fail rfl)
  | unary op operand type span =>
    exact h.placing span (h.bind (eval operand he) fun operand =>
      h.ofExcept (operational_unary op operand))
  | binary left op right type span =>
    have hleft := eval left fun a ha => he a (mem_append_left _ ha)
    have hright := eval right fun a ha => he a (mem_append_right _ ha)
    -- the right operand of the logical operators may not be needed
    have hlast := h.bind hright fun right => h.bind (h.ofExcept (operational_asBool right))
      fun right => h.pure (Value.bool right)
    have hboth := h.placing span (h.bind hleft fun left => h.bind hright fun right =>
      h.orDefault (operational_binary op left right) type span)
    cases op with
    | and =>
      refine h.placing span (h.bind hleft fun left =>
        h.bind (h.ofExcept (operational_asBool left)) fun left => ?_)
      cases left with
      | true => exact hlast
      | false => exact h.pure _
    | or =>
      refine h.placing span (h.bind hleft fun left =>
        h.bind (h.ofExcept (operational_asBool left)) fun left => ?_)
      cases left with
      | true => exact h.pure _
      | false => exact hlast
    | _ => exact hboth
  | call f arguments span =>
    exact h.placing span (hcall f arguments none
      (he _ (mem_append_right _ mem_cons_self))
      (evalAll arguments fun a ha => he a (mem_append_left _ ha)))
  | methodCall f receiver arguments span =>
    have hreceiver := eval receiver fun a ha => he a (mem_append_left _ ha)
    exact h.placing span (h.bind hreceiver fun value => hcall f arguments (some value)
      (he _ (mem_append_right _ (mem_append_right _ mem_cons_self)))
      (evalAll arguments fun a ha => he a (mem_append_right _ (mem_append_left _ ha))))
  | conversion operand type span =>
    refine h.placing span (h.bind (eval operand he) fun operand => h.get fun s t hheap => ?_)
    rw [← hheap]
    exact h.orDefault (operational_convert _ type operand) type span
  | makeLength length type span =>
    exact h.placing span (h.bind (eval length he) fun length =>
      h.bind (h.ofExcept (operational_asInteger length)) fun length => h.makeArray length type span)
  | makeElements elements type span =>
    exact h.placing span (h.bind (evalAll elements he) fun _ => h.onHeap _)
  | index target index type span =>
    have htarget := eval target fun a ha => he a (mem_append_left _ ha)
    have hindex := eval index fun a ha => he a (mem_append_right _ ha)
    exact h.placing span (h.bind htarget fun target => h.bind hindex fun index =>
      h.bind (h.ofExcept (operational_asInteger index)) fun index =>
        h.loadElement target index type span)
  | unresolved span => exact h.placing span (h.fail rfl)

lemma evalAll (es : List Expr) (hes : ∀ a ∈ accessesAll es, touches a) :
    P (evalAll m invoke es) fun k => evalAll m' (invoke' k) (renameEach ρ es) := by
  cases es with
  | nil => exact h.pure _
  | cons e es =>
    have he := eval e fun a ha => hes a (mem_append_left _ ha)
    have hrest := evalAll es fun a ha => hes a (mem_append_right _ ha)
    exact h.bind he fun value => h.bind hrest fun values => h.pure (value :: values)

end

end Calls

end Compatible

/-! ### Computations on related states -/

/-- A relation under which expressions may be evaluated side by side, if every variable that they
touch may be touched. -/
structure Coupled (R : State → State → Prop) (touches : Access → Prop)
    (allowed : FaultCause → Prop) : Prop where
  heap : ∀ {s t : State}, R s t → s.heap = t.heap
  sink : ∀ {s t : State}, R s t → s.sink = t.sink
  file : ∀ {s t : State}, R s t → s.file = t.file
  setHeap : ∀ {s t : State} (heap : Heap), R s t → R { s with heap } { t with heap }
  setSink : ∀ {s t : State} (sink : Sink), R s t → R { s with sink } { t with sink }
  addRecovered : ∀ {s t : State} (f : Fault), R s t → R (s.addRecovered f) (t.addRecovered f)
  read : ∀ {s t : State} {v : Var}, R s t → touches (.read v) → s.value? v = t.value? v ∧
    (s.value? v = none → allowed (.unresolvedVariable v.name))
  write : ∀ {s t : State} {v : Var} (value : Value), R s t → touches (.write v) →
    s.holds v = t.holds v ∧ (s.holds v = false → allowed (.unresolvedVariable v.name)) ∧
    (s.holds v = true → R (s.assign v value) (t.assign v value))
  ofOperation : ∀ cause : FaultCause, cause.ofOperation = true → allowed cause

namespace Coupled

variable {α : Type} {R : State → State → Prop} {touches : Access → Prop}
  {allowed : FaultCause → Prop} (hR : Coupled R touches allowed)
include hR

lemma placing {c : Exec α} {c' : Nat → Exec α} (span : Span) (h : Follows R allowed c c') :
    Follows R allowed (placing span c) fun k => placing span (c' k) := by
  intro s t hst
  rcases h s t hst with ⟨s', hfuel⟩ | ⟨r, hagree, enough, hk⟩
  · exact .inl ⟨s', placing_outOfFuel hfuel⟩
  · generalize hcs : c s = result at hagree
    cases hagree with
    | @ok a s₁ t₁ h₁ =>
      rw [placing_ok hcs]
      exact .inr ⟨.ok a t₁, .ok a h₁, enough, fun k hle => placing_ok (hk k hle)⟩
    | @fault f s₁ t₁ hcause h₁ =>
      rw [placing_fault hcs, hR.file h₁]
      exact .inr ⟨.error (.fault (f.placed ⟨span, t₁.file⟩)) t₁, .fault hcause h₁, enough,
        fun k hle => placing_fault (hk k hle)⟩

lemma loadVar (hv : touches (.read v)) : Follows R allowed (loadVar v) fun _ => loadVar v := by
  refine .of_agrees fun s t hst => ?_
  obtain ⟨heq, hnone⟩ := hR.read hst hv
  cases h : s.value? v with
  | none =>
    rw [loadVar_none h, loadVar_none (heq ▸ h)]
    exact .fault (hnone h) hst
  | some value =>
    rw [loadVar_some h, loadVar_some (heq ▸ h)]
    exact .ok value hst

lemma storeVar (hv : touches (.write v)) (value : Value) :
    Follows R allowed (storeVar v value) fun _ => storeVar v value := by
  refine .of_agrees fun s t hst => ?_
  obtain ⟨heq, hnone, hassign⟩ := hR.write value hst hv
  cases h : s.holds v with
  | false =>
    rw [storeVar_not_holds h, storeVar_not_holds (heq ▸ h)]
    exact .fault (hnone h) hst
  | true =>
    rw [storeVar_holds h, storeVar_holds (heq ▸ h)]
    exact .ok () (hassign h)

lemma onHeap (f : Heap → α × Heap) : Follows R allowed (Exec.onHeap f) fun _ => Exec.onHeap f := by
  refine .of_agrees fun s t hst => ?_
  rw [onHeap_run, onHeap_run, hR.heap hst]
  exact .ok _ (hR.setHeap _ hst)

lemma get {next : State → Exec α} {next' : Nat → State → Exec α}
    (h : ∀ s t, s.heap = t.heap → Follows R allowed (next s) fun k => next' k t) :
    Follows R allowed (get >>= next) fun k => get >>= next' k := by
  intro s t hst
  rw [exec_bind_ok (get_run s)]
  refine (h s t (hR.heap hst) s t hst).imp_right fun ⟨r, hagree, enough, hk⟩ =>
    ⟨r, hagree, enough, fun k hle => ?_⟩
  exact (exec_bind_ok (get_run t) _).trans (hk k hle)

lemma ofExcept {result : Except FaultCause α} (h : Operational result) :
    Follows R allowed (Exec.ofExcept result) fun _ => Exec.ofExcept result :=
  follows_ofExcept fun cause hcause => hR.ofOperation cause (h cause hcause)

lemma recover (mode : Mode) (hcause : cause.ofOperation = true) (span : Span)
    (placeholder : Value) : Follows R allowed (recover mode cause span placeholder) fun _ =>
      recover mode cause span placeholder := by
  refine .of_agrees fun s t hst => ?_
  unfold Parcel.recover
  rw [exec_bind_ok (get_run s), exec_bind_ok (get_run t), hR.file hst]
  split
  · exact .fault (hR.ofOperation cause hcause) hst
  · exact .ok placeholder (hR.addRecovered _ hst)

lemma compatible (m : Machine) (program : Program) :
    Compatible .refl m (m.withProgram program) touches (Follows R allowed) where
  catalog := rfl
  pure := follows_pure
  fail h := follows_fail (hR.ofOperation _ h)
  bind := .bind
  get := hR.get
  placing := hR.placing
  onHeap := hR.onHeap
  ask transfer := .of_agrees fun s t hst => by
    rw [ask_run, ask_run, hR.sink hst]
    exact .ok _ (hR.setSink _ hst)
  loadVar := hR.loadVar
  storeVar value hv := hR.storeVar hv value
  recover span placeholder hcause := hR.recover m.mode hcause span placeholder

lemma native (m : Machine) (native : Native) (receiver : Option Value) (arguments : List Value) :
    Follows R allowed (native.invoke receiver arguments) fun _ =>
      native.invoke receiver arguments :=
  (hR.compatible m m.program).native native receiver arguments

end Coupled

/-- **Expressions follow each other** if the calls in them do and the variables that they touch may
be touched. -/
theorem follows_eval {R : State → State → Prop} {touches : Access → Prop}
    {allowed : FaultCause → Prop} (hR : Coupled R touches allowed) (m : Machine)
    (program : Program) {invoke : Invoke} {invoke' : Nat → Invoke}
    (hinvoke : ∀ f arguments receiver, touches (.call f arguments.length) →
      Follows R allowed (invoke f arguments receiver) fun k => invoke' k f arguments receiver)
    (e : Expr) (he : ∀ a ∈ e.accesses, touches a) :
    Follows R allowed (eval m invoke e) fun k => eval (m.withProgram program) (invoke' k) e := by
  have heval : Follows R allowed (eval m invoke e) fun k =>
      eval (m.withProgram program) (invoke' k) (e.rename .refl) := by
    refine (hR.compatible m program).eval (fun f es receiver hf h => ?_) e he
    refine h.bind_result fun values _ _ hvalues => ?_
    rw [f.rename_refl]
    exact hinvoke f values receiver (by rwa [length_evalAll hvalues])
  rwa [e.rename_refl] at heval

end Parcel
