import Parcel.Proofs.Machine.Activity
import Parcel.Proofs.Machine.Incident

/-!
# Operands and operations

An expression is evaluated in two parts. First its operands are evaluated one after the other, as
long as the values so far ask for the next one; then the expression does with their values what it
does itself. A fault that arises in the second part is placed at the expression.
-/

namespace Parcel

open Code List

variable {cause : FaultCause} {values : List Value} {value : Value}

/-- Whether the next operand is evaluated after the values of those before it. The right operand of
a logical operator is if the left one does not decide, and the value of an assignment if there is
something to assign it to. -/
def Code.Expr.demandsNext : Expr → List Value → Bool
  | .binary _ .and _ _ _, [left] => left.asBool.toOption = some true
  | .binary _ .or _ _ _, [left] => left.asBool.toOption = some false
  | .assign (.index _ _ _ _) _ _, [_, place] => place.asInteger.toOption.isSome
  | .assign (.index _ _ _ _) _ _, _ | .assign (.name _ _) _ _, _ => true
  | .assign _ _ _, _ => false
  | _, _ => true

/-- The values of operands after those that are known, as far as they are evaluated. -/
def gather (m : Machine) (invoke : Invoke) (e : Expr) : List Value → List Expr → Exec (List Value)
  | values, [] => return values
  | values, operand :: rest =>
    if e.demandsNext values then do
      let value ← eval m invoke operand
      gather m invoke e (values ++ [value]) rest
    else return values

/-- What an expression does itself with the values of its operands. -/
def perform (m : Machine) (invoke : Invoke) : Expr → List Value → Exec Value
  | .literal value _, _ => return .ofConstant value
  | .paren _ _, [value] => return value
  | .name v _, _ => loadVar v
  | .assign (.name v _) _ _, [value] => do
    storeVar v value
    return value
  | .assign (.index _ _ _ targetSpan) _ _, [array, index, value] => do
    let index ← Exec.ofExcept index.asInteger
    storeElement m array index value targetSpan
  | .assign (.index _ _ _ _) _ _, [_, index] => do
    let _ ← Exec.ofExcept index.asInteger
    Exec.fail .unresolvedNode
  | .unary op _ _ _, [operand] => Exec.ofExcept (operand.unary op)
  | .binary _ .and _ _ _, [left] => do
    let _ ← Exec.ofExcept left.asBool
    return .bool false
  | .binary _ .or _ _ _, [left] => do
    let _ ← Exec.ofExcept left.asBool
    return .bool true
  | .binary _ .and _ _ _, [_, right] | .binary _ .or _ _ _, [_, right] => do
    let right ← Exec.ofExcept right.asBool
    return .bool right
  | .binary _ op _ type span, [left, right] => orDefault m (Value.binary op left right) type span
  | .call f _ _, values => invoke f values none
  | .methodCall f _ _ _, receiver :: values => invoke f values (some receiver)
  | .conversion _ type span, [operand] => do
    let heap := (← get).heap
    orDefault m (heap.convert type operand) type span
  | .makeLength _ type span, [length] => do
    let length ← Exec.ofExcept length.asInteger
    makeArray m length type span
  | .makeElements _ type _, elements =>
    Exec.onHeap (·.newArray (type.element?.getD .unresolved) elements.toArray)
  | .index _ _ type span, [target, index] => do
    let index ← Exec.ofExcept index.asInteger
    loadElement m target index type span
  | _, _ => Exec.fail .unresolvedNode

/-! ### The two parts -/

@[simp] lemma fail_bind {α β : Type} (cause : FaultCause) (next : α → Exec β) :
    (Exec.fail cause >>= next) = Exec.fail cause := rfl

@[simp] lemma map_fail {α β : Type} (g : α → β) (cause : FaultCause) :
    g <$> Exec.fail cause = Exec.fail cause := rfl

section Parts

variable (m : Machine) (invoke : Invoke)

lemma gather_of_demanded {e : Expr} (h : ∀ values, e.demandsNext values = true)
    (values : List Value) (es : List Expr) :
    gather m invoke e values es = evalAll m invoke es >>= fun rest => pure (values ++ rest) := by
  induction es generalizing values with
  | nil => simp [gather, evalAll]
  | cons operand es ih => simp [gather, evalAll, h, ih]

/-- **Evaluation** is that of the operands and then the expression's own part. -/
theorem eval_eq (e : Expr) : eval m invoke e =
    placing e.span (gather m invoke e [] e.operands >>= perform m invoke e) := by
  cases e with
  | literal | name | unresolved => rfl
  | paren | unary | conversion | makeLength | index =>
    simp [eval, Expr.span, Expr.operands, gather, Expr.demandsNext, perform]
  | call f arguments span =>
    simp only [Expr.operands, gather_of_demanded m invoke (e := .call f arguments span) fun _ => rfl,
      bind_assoc, pure_bind, nil_append]
    rfl
  | methodCall f receiver arguments span =>
    simp only [Expr.operands, gather_of_demanded m invoke
      (e := .methodCall f receiver arguments span) fun _ => rfl, evalAll, bind_assoc, pure_bind,
      nil_append]
    rfl
  | makeElements elements type span =>
    simp only [Expr.operands, gather_of_demanded m invoke
      (e := .makeElements elements type span) fun _ => rfl, bind_assoc, pure_bind, nil_append]
    rfl
  | assign target value span =>
    cases target with
    | name | literal | paren | assign | unary | binary | call | methodCall | conversion
    | makeLength | makeElements | unresolved =>
      simp [eval, Expr.span, Expr.operands, gather, Expr.demandsNext, perform]
    | index array place =>
      simp only [eval, Expr.span, Expr.operands, gather, Expr.demandsNext, bind_assoc, if_true,
        nil_append, cons_append]
      refine congrArg _ (bind_congr fun array => bind_congr fun place => ?_)
      obtain ⟨index, hplace⟩ : ∃ index, place.asInteger = index := ⟨_, rfl⟩
      rcases index with cause | index
      all_goals simp [hplace, Except.toOption, perform, Exec.ofExcept]
  | binary left op right type span =>
    cases op with
    | and | or =>
      simp only [eval, Expr.span, Expr.operands, gather, Expr.demandsNext, bind_assoc, if_true,
        nil_append, cons_append]
      refine congrArg _ (bind_congr fun left => ?_)
      obtain ⟨decision, hleft⟩ : ∃ decision, left.asBool = decision := ⟨_, rfl⟩
      rcases decision with cause | _ | _
      all_goals simp [hleft, Except.toOption, perform, Exec.ofExcept]
    | _ => simp [eval, Expr.span, Expr.operands, gather, Expr.demandsNext, perform]

end Parts

/-! ### Where faults are placed -/

def Code.Expr.callee? : Expr → Option FunctionSymbol
  | .call f _ _ | .methodCall f _ _ _ => some f
  | _ => none

/-- The part of an expression at which its own fault is placed: the target if there is no element to
assign to, and the expression otherwise. -/
def Code.Expr.culprit : Expr → FaultCause → Expr
  | .assign (.index array place type span) _ _, .indexOutOfBounds _ _ => .index array place type span
  | e, _ => e

/-- Faults of the computation have a place that depends on their cause, once they are placed at the
expression that they belong to. -/
structure PlacedAt {α : Type} (own : Span) (span : FaultCause → Span) (c : Exec α) : Prop where
  collects : Collects c
  place : ∀ (incident : Incident) s f, incident.fault? s (c s) = some f →
    (incident.placed ⟨own, s.file⟩ f).place = some ⟨span f.cause, s.file⟩

namespace PlacedAt

variable {α β : Type} {own : Span} {span : FaultCause → Span}

variable {next : α → Exec β} {c : Exec α} (m : Machine)

lemma of_plain (h : Plain c) (hspan : ∀ s f t, c s = .error (.fault f) t → span f.cause = own) :
    PlacedAt own span c := by
  refine ⟨h.collects, fun incident s f hf => ?_⟩
  obtain ⟨rfl, hplace⟩ := h.eq_failure hf
  cases hc : c s with
  | ok =>
    rw [hc] at hf
    cases hf
  | error e t =>
    rw [hc] at hf
    cases e with
    | outOfFuel => cases hf
    | fault =>
      cases hf
      rw [hspan s f t hc, Incident.placed, Fault.placed, hplace]
      rfl

lemma plain (h : Plain c) : PlacedAt own (fun _ => own) c :=
  of_plain h fun _ _ _ _ => rfl

lemma fail (h : span cause = own) : PlacedAt own span (Exec.fail cause : Exec α) :=
  of_plain (.fail cause) fun s f t hf => by
    cases hf
    exact h

lemma get {next : State → Exec β} (h : ∀ s, PlacedAt own span (next s)) :
    PlacedAt own span (get >>= next) :=
  ⟨fun s => (h s).collects s, fun incident s f hf => (h s).place incident s f hf⟩

lemma onHeap {g : Heap → α × Heap} (h : ∀ a, PlacedAt own span (next a)) :
    PlacedAt own span (Exec.onHeap g >>= next) := by
  refine ⟨(Plain.onHeap g).collects.bind fun a => (h a).collects, fun incident s f hf => ?_⟩
  rw [exec_bind_ok (onHeap_run g s)] at hf
  exact (h _).place incident { s with heap := (g s.heap).2 } f (by cases incident <;> exact hf)

lemma ofExcept {result : Except FaultCause α}
    (hresult : ∀ cause, result = .error cause → span cause = own)
    (h : ∀ a, PlacedAt own span (next a)) : PlacedAt own span (Exec.ofExcept result >>= next) := by
  cases result with
  | ok a => exact h a
  | error cause => exact fail (hresult cause rfl)

lemma arrayAddress {array : Value} {next : Address → Exec β}
    (harray : ∀ expected found, span (.operandMismatch expected found) = own)
    (h : ∀ address, PlacedAt own span (next address)) :
    PlacedAt own span (arrayAddress array >>= next) := by
  cases array with
  | array address => exact h address
  | _ => exact fail (harray _ _)

/-- **Recovery** notes the fault with its place, and a strict run fails with it. -/
theorem recover (mode : Mode) {place : Span} (value : Value) (h : span cause = place) :
    PlacedAt own span (recover mode cause place value) := by
  subst h
  have hrun (s : State) : Parcel.recover mode cause (span cause) value s =
      if mode.strict || !cause.isRecoverable then
        .error (.fault ⟨cause, some ⟨span cause, s.file⟩⟩) s
      else .ok value (s.addRecovered ⟨cause, some ⟨span cause, s.file⟩⟩) := by
    unfold Parcel.recover
    rw [exec_bind_ok (get_run s)]
    split
    next => rfl
    next => rfl
  refine ⟨fun s => ?_, fun incident s f hf => ?_⟩
  · rw [hrun]
    split
    · exact prefix_rfl
    · exact ⟨[_], Array.toList_push.symm⟩
  rw [hrun] at hf
  split at hf
  next =>
    cases incident with
    | failure =>
      cases hf
      rfl
    | recovery index =>
      have hnone := Incident.fault?_ok (.recovery index) (a := value) (rfl : s.recovered = s.recovered)
      exact absurd (hf.symm.trans hnone) (Option.some_ne_none f)
  next =>
    cases incident with
    | failure => cases hf
    | recovery index =>
      have hindex : (if index < s.recovered.size then none else
          (s.recovered.push ⟨cause, some ⟨span cause, s.file⟩⟩)[index]?) = some f := hf
      rw [Array.getElem?_push] at hindex
      split at hindex
      · cases hindex
      next hle =>
        split at hindex
        · cases hindex
          rfl
        next hne => exact absurd (Array.getElem?_eq_some_iff.mp hindex).1 hle

lemma orDefault {result : Except FaultCause Value} (type : Ty) :
    PlacedAt own (fun _ => own) (orDefault m result type own) := by
  cases result with
  | ok value => exact plain (.pure value)
  | error => exact onHeap fun placeholder => recover m.mode placeholder rfl

lemma loadElement (array : Value) (index : Int) (type : Ty) :
    PlacedAt own (fun _ => own) (loadElement m array index type own) :=
  arrayAddress (fun _ _ => rfl) fun _ => .get fun _ => orDefault m type

lemma makeArray (length : Int) (type : Ty) :
    PlacedAt own (fun _ => own) (makeArray m length type own) := by
  unfold Parcel.makeArray
  dsimp only
  split
  · exact onHeap fun empty => recover m.mode empty rfl
  · exact onHeap fun elements => plain (.onHeap _)

lemma storeElement (array : Value) (index : Int) (value : Value) {target : Span}
    (harray : ∀ expected found, span (.operandMismatch expected found) = own)
    (houtside : ∀ index length, span (.indexOutOfBounds index length) = target) :
    PlacedAt own span (storeElement m array index value target) := by
  refine arrayAddress harray fun address => .get fun s => ?_
  dsimp only
  split
  · exact of_plain (.onHeap _) fun _ _ _ h => by cases h
  · exact recover m.mode value (houtside _ _)

end PlacedAt

lemma mismatch_of_asInteger (h : value.asInteger = .error cause) :
    ∃ expected found, cause = .operandMismatch expected found := by
  unfold Value.asInteger at h
  split at h
  · cases h
  · cases h
    exact ⟨_, _, rfl⟩

/-- **The own part of an expression** places its faults at the expression, or at the target if there
is no element to assign to. -/
theorem placedAt_perform (m : Machine) (invoke : Invoke) {e : Expr} (h : e.callee? = none)
    (values : List Value) :
    PlacedAt e.span (fun cause => (e.culprit cause).span) (perform m invoke e values) := by
  have hother : (e.culprit .unresolvedNode).span = e.span := by
    cases e with
    | assign target => cases target <;> rfl
    | _ => rfl
  unfold perform
  split
  next => exact .plain (.pure _)
  next => exact .plain (.pure _)
  next => exact .plain (.loadVar _)
  next v _ _ _ value => exact .plain ((Plain.storeVar v value).bind fun _ => .pure _)
  next array index value =>
    refine .ofExcept (fun cause hcause => ?_) fun index => ?_
    · obtain ⟨expected, found, rfl⟩ := mismatch_of_asInteger hcause
      rfl
    · exact .storeElement m array index value (fun _ _ => rfl) fun _ _ => rfl
  next index =>
    refine .ofExcept (fun cause hcause => ?_) fun _ => .fail rfl
    obtain ⟨expected, found, rfl⟩ := mismatch_of_asInteger hcause
    rfl
  next => exact .plain (.ofExcept _)
  next => exact .plain ((Plain.ofExcept _).bind fun _ => .pure _)
  next => exact .plain ((Plain.ofExcept _).bind fun _ => .pure _)
  next => exact .plain ((Plain.ofExcept _).bind fun _ => .pure _)
  next => exact .plain ((Plain.ofExcept _).bind fun _ => .pure _)
  next => exact .orDefault m _
  next => cases h
  next => cases h
  next => exact .get fun _ => .orDefault m _
  next => exact .ofExcept (fun _ _ => rfl) fun _ => .makeArray m _ _
  next => exact .plain (.onHeap _)
  next => exact .ofExcept (fun _ _ => rfl) fun _ => .loadElement m _ _ _
  next => exact .fail hother

/-! ### The operands of a run -/

/-- All operands but the last one are evaluated in any case. -/
lemma demandsNext_of_lt {e : Expr} (h : values.length + 1 < e.operands.length) :
    e.demandsNext values = true := by
  cases e with
  | assign target =>
    cases target with
    | index =>
      rcases values with _ | ⟨_, _ | ⟨_, values⟩⟩
      · rfl
      · rfl
      · simp only [Expr.operands, length_cons, length_nil] at h
        omega
    | _ => simp [Expr.operands] at h
  | binary left op =>
    rcases values with _ | ⟨_, values⟩
    · cases op <;> rfl
    · simp only [Expr.operands, length_cons, length_nil] at h
      omega
  | _ => rfl

section Runs

variable {m : Machine} {fuel : Nat} {e : Expr}

variable (m fuel e) in
lemma collects_gather (values : List Value) (es : List Expr) :
    Collects (gather m (call m fuel) e values es) := by
  induction es generalizing values with
  | nil => exact (Plain.pure values).collects
  | cons operand es ih =>
    unfold gather
    split
    · exact (Collects.eval m fuel operand).bind fun _ => ih _
    · exact (Plain.pure values).collects

variable (m fuel e) in
lemma collects_perform (values : List Value) : Collects (perform m (call m fuel) e values) := by
  cases hcall : e.callee? with
  | none => exact (placedAt_perform m _ hcall values).collects
  | some f =>
    cases e with
    | call f => exact Collects.call m fuel f values none
    | methodCall f receiver =>
      cases values with
      | nil => exact (Plain.fail _).collects
      | cons receiver values => exact Collects.call m fuel f values (some receiver)
    | _ => cases hcall

lemma gather_append {before rest : List Expr} {vs : List Value} {s t : State}
    (hdemand : ∀ known : List Value, known.length < values.length + before.length →
      e.demandsNext known = true) (h : evalAll m (call m fuel) before s = .ok vs t) :
    gather m (call m fuel) e values (before ++ rest) s =
      gather m (call m fuel) e (values ++ vs) rest t := by
  induction before generalizing values vs s with
  | nil =>
    cases h
    rw [nil_append, append_nil]
  | cons operand before ih =>
    obtain ⟨value, s₁, hvalue, h⟩ := exists_of_exec_bind_ok h
    obtain ⟨vs, s₂, hvs, h⟩ := exists_of_exec_bind_ok h
    cases h
    rw [cons_append, gather, if_pos (hdemand values (by simp)), exec_bind_ok hvalue,
      ih (fun known hknown => hdemand known (by simp at hknown ⊢; omega)) hvs, append_assoc]
    rfl

lemma evalAll_snoc {es : List Expr} {operand : Expr} {s t u : State}
    (hes : evalAll m (call m fuel) es s = .ok values t)
    (h : eval m (call m fuel) operand t = .ok value u) :
    evalAll m (call m fuel) (es ++ [operand]) s = .ok (values ++ [value]) u := by
  induction es generalizing values s with
  | nil =>
    cases hes
    exact (exec_bind_ok h _).trans rfl
  | cons first es ih =>
    obtain ⟨v, s₁, hfirst, hes⟩ := exists_of_exec_bind_ok hes
    obtain ⟨vs, s₂, hvs, hes⟩ := exists_of_exec_bind_ok hes
    cases hes
    exact (exec_bind_ok hfirst _).trans (exec_bind_ok (ih hvs) _)

variable {incident : Incident} {f : Fault} {s : State}

/-- **A fault of the operands** is that of an operand that is evaluated. -/
theorem fault?_gather : incident.fault? s (gather m (call m fuel) e [] e.operands s) = some f ↔
    ∃ before operand after values t, e.operands = before ++ operand :: after ∧
      evalAll m (call m fuel) before s = .ok values t ∧ e.demandsNext values = true ∧
      incident.fault? t (eval m (call m fuel) operand t) = some f := by
  have step {values : List Value} {operand : Expr} {rest : List Expr} {t : State}
      (hdemand : e.demandsNext values = true) :
      incident.fault? t (gather m (call m fuel) e values (operand :: rest) t) = some f ↔
        incident.fault? t (eval m (call m fuel) operand t) = some f ∨
          ∃ value u, eval m (call m fuel) operand t = .ok value u ∧
            incident.fault? u (gather m (call m fuel) e (values ++ [value]) rest u) = some f := by
    rw [gather, if_pos hdemand]
    exact incident.fault?_bind (Collects.eval m fuel operand) fun _ => collects_gather m fuel e _ rest
  constructor
  · -- after the operands in `done`, whose values are known
    suffices h : ∀ rest done values t, e.operands = done ++ rest →
        evalAll m (call m fuel) done s = .ok values t →
        incident.fault? t (gather m (call m fuel) e values rest t) = some f →
        ∃ before operand after values t, e.operands = before ++ operand :: after ∧
          evalAll m (call m fuel) before s = .ok values t ∧ e.demandsNext values = true ∧
          incident.fault? t (eval m (call m fuel) operand t) = some f from
      h e.operands [] [] s rfl rfl
    intro rest
    induction rest with
    | nil =>
      intro done values t _ _ hf
      have hnone := incident.fault?_ok (a := values) (rfl : t.recovered = t.recovered)
      exact absurd (hf.symm.trans hnone) (Option.some_ne_none f)
    | cons operand rest ih =>
      intro done values t hsplit hdone hf
      cases hdemand : e.demandsNext values with
      | false =>
        have hnone := incident.fault?_ok (a := values) (rfl : t.recovered = t.recovered)
        rw [gather, hdemand, if_neg Bool.false_ne_true] at hf
        exact absurd (hf.symm.trans hnone) (Option.some_ne_none f)
      | true =>
        rcases (step hdemand).mp hf with hf | ⟨value, u, hvalue, hf⟩
        · exact ⟨done, operand, rest, values, t, hsplit, hdone, hdemand, hf⟩
        · exact ih (done ++ [operand]) (values ++ [value]) u (by simp [hsplit])
            (evalAll_snoc hdone hvalue) hf
  · rintro ⟨before, operand, after, values, t, hsplit, hbefore, hdemand, hf⟩
    have hreached : gather m (call m fuel) e [] e.operands s =
        gather m (call m fuel) e values (operand :: after) t := by
      rw [hsplit]
      refine (gather_append (fun known hknown => demandsNext_of_lt ?_) hbefore).trans ?_
      · simp only [hsplit, length_append, length_cons, length_nil] at hknown ⊢
        omega
      · rfl
    rw [hreached]
    exact incident.fault?_of_le ((Collects.evalAll m fuel before).size_le hbefore)
      ((step hdemand).mpr (.inl hf))

end Runs

end Parcel
