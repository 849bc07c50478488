import Mathlib.Data.List.Forall2
import Parcel.Machine.Convert
import Parcel.Machine.Operation
import Parcel.Proofs.Typing.Judgement

/-!
# Types of values

The type that a value has at run time, which for arrays and containers is noted on the heap. Objects
never change their types, so a value keeps its type while the heap grows and its elements and fields
are assigned.
-/

namespace Parcel

open Code

/-- Whether a cause is a fault of typing: an operand of another kind than the operation is for, or
an expression that was not resolved. -/
def FaultCause.ofTyping : FaultCause → Bool
  | .operandMismatch _ _ | .unresolvedNode => true
  | _ => false

/-- The catalog knows the text builder, a container with one text. -/
def Catalog.HasBuilder (catalog : Catalog) : Prop :=
  ∃ container, catalog.container? builderType = some container ∧
    container.fields.map (fun v => (v.name, v.type)) = [(bufferName, .string)]

namespace Heap

variable {v : Value} {fields : Fields} {type : Ty} {heap : Heap} {catalog : Catalog}

/-- The type of a value; none if it refers to nothing. -/
def typeOf? (heap : Heap) : Value → Option Ty
  | .integer value => some (.integer value.width)
  | .float _ => some .float
  | .double _ => some .double
  | .bool _ => some .bool
  | .string _ => some .string
  | .void => some .void
  | .array address =>
    match heap.get? address with
    | some (.array element _) => some (.array element)
    | _ => none
  | .container address =>
    match heap.get? address with
    | some (.container (.container name) _) => some (.container name)
    | _ => none

/-- The values of each type. -/
inductive Shape (heap : Heap) : Value → Ty → Prop
  | integer (n : Word) : Shape heap (.integer n) (.integer n.width)
  | float (x : Float32) : Shape heap (.float x) .float
  | double (x : Float) : Shape heap (.double x) .double
  | bool (b : Bool) : Shape heap (.bool b) .bool
  | string (text : String) : Shape heap (.string text) .string
  | void : Shape heap .void .void
  | array {address τ elements} (h : heap.get? address = some (.array τ elements)) :
    Shape heap (.array address) (.array τ)
  | container {address name fields}
    (h : heap.get? address = some (.container (.container name) fields)) :
    Shape heap (.container address) (.container name)

lemma typeOf?_eq_some_iff {τ : Ty} : heap.typeOf? v = some τ ↔ heap.Shape v τ := by
  constructor
  · intro h
    unfold typeOf? at h
    split at h
    case h_7 | h_8 =>
      split at h
      · cases h
        constructor
        assumption
      · cases h
    all_goals
      cases h
      constructor
  · intro h
    cases h with
    | array h | container h => rw [typeOf?, h]
    | _ => rfl

lemma shape {τ : Ty} (h : heap.typeOf? v = some τ) : heap.Shape v τ :=
  typeOf?_eq_some_iff.mp h

/-! ### Growing heaps -/

/-- Every value keeps its type. -/
def Extends (heap heap' : Heap) : Prop :=
  ∀ v τ, heap.typeOf? v = some τ → heap'.typeOf? v = some τ

def SameKind : Object → Object → Prop
  | .array element _, .array element' _ => element = element'
  | .container type _, .container type' _ => type = type'
  | _, _ => False

def Suits (heap : Heap) (catalog : Catalog) : Object → Prop
  | .array element elements => ∀ v ∈ elements, heap.typeOf? v = some element
  | .container type fields => ∃ container, catalog.container? type = some container ∧
    List.Forall₂ (fun field v => field.1 = v.name ∧ heap.typeOf? field.2 = some v.type) fields
      container.fields

/-- The elements and fields of all objects have their types. -/
def Typed (heap : Heap) (catalog : Catalog) : Prop :=
  ∀ address object, heap.get? address = some object → heap.Suits catalog object

section Growing

variable {heap heap' heap'' : Heap} {catalog : Catalog}

lemma Extends.refl (heap : Heap) : heap.Extends heap := fun _ _ h => h

lemma Extends.trans (h : heap.Extends heap') (h' : heap'.Extends heap'') : heap.Extends heap'' :=
  fun v τ hv => h' v τ (h v τ hv)

lemma Suits.mono (h : heap.Extends heap') {object : Object} (hobject : heap.Suits catalog object) :
    heap'.Suits catalog object := by
  cases object with
  | array element => exact fun v hv => h v element (hobject v hv)
  | container type =>
    obtain ⟨container, hcontainer, hfields⟩ := hobject
    exact ⟨container, hcontainer, hfields.imp fun field v hv => ⟨hv.1, h field.2 v.type hv.2⟩⟩

lemma extends_of_sameKind (h : ∀ address object, heap.get? address = some object →
    ∃ object', heap'.get? address = some object' ∧ SameKind object object') :
    heap.Extends heap' := by
  intro v τ hv
  rw [typeOf?_eq_some_iff] at hv ⊢
  cases hv with
  | array hget =>
    obtain ⟨object, hobject, hkind⟩ := h _ _ hget
    cases object with
    | array element => exact .array ((show _ = element from hkind) ▸ hobject)
    | container => exact hkind.elim
  | container hget =>
    obtain ⟨object, hobject, hkind⟩ := h _ _ hget
    cases object with
    | array => exact hkind.elim
    | container type => exact .container ((show _ = type from hkind) ▸ hobject)
  | _ => constructor

lemma get?_allocate (heap : Heap) (object : Object) (address : Address) :
    (heap.allocate object).2.get? address =
      if address = (heap.allocate object).1 then some object else heap.get? address := by
  have heq : address = (heap.allocate object).1 ↔ address.index = heap.objects.size := by
    cases address
    simp [allocate]
  simp only [heq]
  exact Array.getElem?_push

lemma extends_allocate (heap : Heap) (object : Object) : heap.Extends (heap.allocate object).2 := by
  refine extends_of_sameKind fun address old hold => ⟨old, ?_, ?_⟩
  · have hbound : address.index < heap.objects.size := (Array.getElem?_eq_some_iff.mp hold).1
    rw [get?_allocate, if_neg, hold]
    rintro rfl
    exact absurd hbound (Nat.lt_irrefl _)
  · cases old with
    | array | container => rfl

lemma typed_allocate (h : heap.Typed catalog) {object : Object} (hobject : heap.Suits catalog object) :
    (heap.allocate object).2.Typed catalog := by
  intro address found hfound
  rw [get?_allocate] at hfound
  refine Suits.mono (extends_allocate heap object) ?_
  split at hfound
  · exact Option.some.inj hfound ▸ hobject
  · exact h address found hfound

lemma typed_empty (catalog : Catalog) : Heap.empty.Typed catalog :=
  fun _ _ h => nomatch h

end Growing

/-! ### New values -/

/-- An operation on the heap gives a value of a type, and everything else keeps its type. -/
structure Gives (catalog : Catalog) (heap : Heap) (type : Ty) (result : Value × Heap) : Prop where
  grows : heap.Extends result.2
  typed : result.2.Typed catalog
  value : result.2.typeOf? result.1 = some type

section New

variable {catalog : Catalog} {heap : Heap} (h : heap.Typed catalog)
include h

lemma gives_newArray {element : Ty} {elements : Array Value}
    (helements : ∀ v ∈ elements, heap.typeOf? v = some element) :
    Gives catalog heap (.array element) (heap.newArray element elements) where
  grows := extends_allocate heap _
  typed := typed_allocate h helements
  value := typeOf?_eq_some_iff.mpr (.array ((get?_allocate heap _ _).trans (if_pos rfl)))

lemma gives_newContainer {name : String}
    (hfields : heap.Suits catalog (.container (.container name) fields)) :
    Gives catalog heap (.container name) (heap.newContainer (.container name) fields) where
  grows := extends_allocate heap _
  typed := typed_allocate h hfields
  value := typeOf?_eq_some_iff.mpr (.container ((get?_allocate heap _ _).trans (if_pos rfl)))

lemma gives_self (hv : heap.typeOf? v = some type) : Gives catalog heap type (v, heap) :=
  ⟨.refl heap, h, hv⟩

end New

lemma suits_builder (hbuilder : catalog.HasBuilder) :
    heap.Suits catalog (.container builderType fields) ↔
      ∃ text, fields = [(bufferName, .string text)] := by
  obtain ⟨container, hcontainer, hfields⟩ := hbuilder
  obtain ⟨buffer, hbuffer, hpair⟩ := List.map_eq_singleton_iff.mp hfields
  obtain ⟨hname, htype⟩ := Prod.mk.inj hpair
  constructor
  · rintro ⟨found, hfound, hforall⟩
    obtain rfl := Option.some.inj (hcontainer.symm.trans hfound)
    rw [hbuffer] at hforall
    cases hforall with
    | @cons field _ rest _ hfield hrest =>
      cases hrest
      obtain ⟨name, value⟩ := field
      obtain ⟨rfl, hvalue⟩ := hfield
      rw [htype] at hvalue
      cases shape hvalue with
      | string text => exact ⟨text, by rw [hname]⟩
  · rintro ⟨text, rfl⟩
    refine ⟨container, hcontainer, ?_⟩
    rw [hbuffer]
    exact .cons ⟨hname.symm, by rw [htype]; rfl⟩ .nil

lemma default_builder (hbuilder : catalog.HasBuilder) (heap : Heap) :
    heap.default catalog builderType = heap.newContainer builderType [(bufferName, .string "")] := by
  obtain ⟨container, hcontainer, hfields⟩ := hbuilder
  obtain ⟨buffer, hbuffer, hpair⟩ := List.map_eq_singleton_iff.mp hfields
  obtain ⟨hname, htype⟩ := Prod.mk.inj hpair
  have hpos : 0 < catalog.containers.length :=
    List.length_pos_of_mem (List.mem_of_find?_eq_some hcontainer)
  obtain ⟨depth, hdepth⟩ := Nat.exists_eq_succ_of_ne_zero (Nat.ne_of_gt hpos)
  unfold default
  rw [hdepth, builderType, defaultTo]
  rw [builderType] at hcontainer
  simp only [hcontainer, hbuffer, List.foldl_cons, List.foldl_nil, htype, hname, defaultTo, Fields.set]

/-- **Default values have the type that is asked for.** -/
theorem gives_default {catalog : Catalog} (hbuilder : catalog.HasBuilder) {heap : Heap}
    (h : heap.Typed catalog) (htype : type.Formed) :
    Gives catalog heap type (heap.default catalog type) := by
  cases type with
  | unresolved => exact htype.elim
  | array =>
    rw [default, defaultTo]
    exact gives_newArray h fun v hv => absurd hv (Array.not_mem_empty v)
  | container name =>
    obtain rfl : name = builderName := htype
    rw [← builderType, default_builder hbuilder]
    exact gives_newContainer h ((suits_builder hbuilder).mpr ⟨"", rfl⟩)
  | _ =>
    rw [default, defaultTo]
    exact gives_self h rfl

lemma gives_addDefaults (hbuilder : catalog.HasBuilder) (htype : type.Formed) (count : Nat)
    (h : heap.Typed catalog) {values : Array Value}
    (hvalues : ∀ v ∈ values, heap.typeOf? v = some type) :
    let result := heap.addDefaults catalog type values count
    heap.Extends result.2 ∧ result.2.Typed catalog ∧
      ∀ v ∈ result.1, result.2.typeOf? v = some type := by
  induction count generalizing heap values with
  | zero => exact ⟨.refl heap, h, hvalues⟩
  | succ count ih =>
    have hdefault := gives_default hbuilder h htype
    have hpushed : ∀ v ∈ values.push (heap.default catalog type).1,
        (heap.default catalog type).2.typeOf? v = some type := by
      intro v hv
      rcases Array.mem_push.mp hv with hv | rfl
      · exact hdefault.grows v type (hvalues v hv)
      · exact hdefault.value
    obtain ⟨hgrows, htyped, hall⟩ := ih hdefault.typed hpushed
    exact ⟨hdefault.grows.trans hgrows, htyped, hall⟩

/-! ### Assignment of elements and fields -/

section Assign

variable {catalog : Catalog} {heap : Heap} {address : Address} {object : Object}
  {change : Object → Object}

lemma get?_modify (heap : Heap) (address : Address) (change : Object → Object) (other : Address) :
    Heap.get? ⟨heap.objects.modify address.index change⟩ other =
      if other = address then (heap.get? address).map change else heap.get? other := by
  have heq : other = address ↔ address.index = other.index := by
    cases other
    cases address
    simp [eq_comm]
  simp only [heq]
  rw [get?, Array.getElem?_modify]
  split
  next hindex => rw [get?, hindex]
  · rfl

lemma extends_modify (hget : heap.get? address = some object)
    (hkind : SameKind object (change object)) :
    heap.Extends ⟨heap.objects.modify address.index change⟩ := by
  refine extends_of_sameKind fun other old hold => ?_
  rw [get?_modify]
  by_cases hother : other = address
  · obtain rfl : object = old := Option.some.inj (hget.symm.trans (hother ▸ hold))
    exact ⟨change object, by rw [if_pos hother, hget, Option.map_some], hkind⟩
  · refine ⟨old, by rw [if_neg hother, hold], ?_⟩
    cases old with
    | array | container => rfl

lemma typed_modify (h : heap.Typed catalog) (hget : heap.get? address = some object)
    (hkind : SameKind object (change object)) (hsuits : heap.Suits catalog (change object)) :
    Typed ⟨heap.objects.modify address.index change⟩ catalog := by
  intro other found hfound
  rw [get?_modify] at hfound
  refine Suits.mono (extends_modify hget hkind) ?_
  split at hfound
  · rw [hget, Option.map_some] at hfound
    exact Option.some.inj hfound ▸ hsuits
  · exact h other found hfound

lemma gives_setElement (h : heap.Typed catalog) {τ : Ty} {elements : Array Value}
    (hget : heap.get? address = some (.array τ elements)) {value : Value}
    (hvalue : heap.typeOf? value = some τ) (index : Nat) :
    Gives catalog heap τ (value, heap.setElement address index value) := by
  have hgrows : heap.Extends (heap.setElement address index value) := extends_modify hget rfl
  refine ⟨hgrows, typed_modify h hget rfl fun v hv => ?_, hgrows value τ hvalue⟩
  rcases Array.mem_or_eq_of_mem_setIfInBounds hv with hv | rfl
  · exact h address _ hget v hv
  · exact hvalue

lemma setField_builder (hbuilder : catalog.HasBuilder) (h : heap.Typed catalog)
    (hget : heap.get? address = some (.container builderType fields)) (text : String) :
    heap.Extends (heap.setField address bufferName (.string text)) ∧
      (heap.setField address bufferName (.string text)).Typed catalog := by
  refine ⟨extends_modify hget rfl, typed_modify h hget rfl ?_⟩
  obtain ⟨old, rfl⟩ := (suits_builder hbuilder).mp (h address _ hget)
  exact (suits_builder hbuilder).mpr ⟨text, rfl⟩

end Assign

/-! ### Operators and conversions -/

def Yields (heap : Heap) (type : Ty) : Except FaultCause Value → Prop
  | .ok v => heap.typeOf? v = some type
  | .error cause => cause.ofTyping = false

section Operations

variable {heap : Heap}

lemma exists_integer {width : Width} (h : heap.typeOf? v = some (.integer width)) :
    ∃ n, v = .integer n ∧ n.width = width := by
  cases shape h with
  | integer n => exact ⟨n, rfl, rfl⟩

lemma yields_unary {op : UnaryOp} {σ τ : Ty} (hv : heap.typeOf? v = some σ)
    (hop : op.result? σ = some τ) : heap.Yields τ (v.unary op) := by
  cases op with
  | negate | identity =>
    cases shape hv with
    | integer | float | double =>
      cases hop
      exact rfl
    | _ => cases hop
  | logicalNot =>
    cases shape hv with
    | bool =>
      cases hop
      exact rfl
    | _ => cases hop

section Binary

variable {op : BinaryOp} {τ : Ty}

lemma yields_integerBinary {width : Width} (hop : op.result? (.integer width) = some τ) (a b : Int) :
    heap.Yields τ (Value.integerBinary op width a b) := by
  cases op with
  | div | rem =>
    cases hop
    simp only [Value.integerBinary, Word.unwrapped?]
    split
    · exact rfl
    · exact rfl
  | concat | and | or => cases hop
  | _ =>
    cases hop
    exact rfl

lemma yields_floatBinary (hop : op.result? .float = some τ) (a b : Float32) :
    heap.Yields τ (Value.floatBinary op a b) := by
  cases op with
  | concat | and | or => cases hop
  | _ =>
    cases hop
    exact rfl

lemma yields_doubleBinary (hop : op.result? .double = some τ) (a b : Float) :
    heap.Yields τ (Value.doubleBinary op a b) := by
  cases op with
  | concat | and | or => cases hop
  | _ =>
    cases hop
    exact rfl

lemma yields_boolBinary (hop : op.result? .bool = some τ) (a b : Bool) :
    heap.Yields τ (Value.boolBinary op a b) := by
  cases op with
  | and | or | eq | ne =>
    cases hop
    exact rfl
  | _ => cases hop

lemma yields_stringBinary (hop : op.result? .string = some τ) (a b : String) :
    heap.Yields τ (Value.stringBinary op a b) := by
  cases op with
  | concat | eq | ne =>
    cases hop
    exact rfl
  | _ => cases hop

lemma yields_compareEquality {σ : Ty} (hop : op.result? σ = some τ) (hnumeric : σ.isNumeric = false)
    (hstring : σ ≠ .string) (hbool : σ ≠ .bool) (equal : Bool) :
    heap.Yields τ (Value.compareEquality op equal) := by
  cases op with
  | eq | ne =>
    simp only [BinaryOp.result?] at hop
    split at hop
    · cases hop
      exact rfl
    · cases hop
  | _ => simp [BinaryOp.result?, hnumeric, hstring, hbool] at hop

/-- **Binary operators give values of their type**, or a division by zero. -/
theorem yields_binary {σ : Ty} {left right : Value} (hleft : heap.typeOf? left = some σ)
    (hright : heap.typeOf? right = some σ) (hop : op.result? σ = some τ) :
    heap.Yields τ (Value.binary op left right) := by
  cases shape hleft with
  | integer a =>
    obtain ⟨b, rfl, hwidth⟩ := exists_integer hright
    rw [Value.binary, if_pos hwidth.symm]
    exact yields_integerBinary hop a.val b.val
  | float a =>
    cases shape hright with
    | float b => exact yields_floatBinary hop a b
  | double a =>
    cases shape hright with
    | double b => exact yields_doubleBinary hop a b
  | bool a =>
    cases shape hright with
    | bool b => exact yields_boolBinary hop a b
  | string a =>
    cases shape hright with
    | string b => exact yields_stringBinary hop a b
  | void => cases op <;> cases hop
  | array =>
    cases shape hright with
    | array => exact yields_compareEquality hop rfl Ty.noConfusion Ty.noConfusion _
  | container =>
    cases shape hright with
    | container => exact yields_compareEquality hop rfl Ty.noConfusion Ty.noConfusion _

end Binary

lemma typeOf?_ofInteger? {n : Int} (h : Value.ofInteger? type n = some v) :
    heap.typeOf? v = some type := by
  cases type with
  | integer | float | double =>
    cases h
    rfl
  | _ => cases h

lemma typeOf?_ofFloat? {x : Float} (h : Value.ofFloat? type x = some v) :
    heap.typeOf? v = some type := by
  cases type with
  | float | double =>
    cases h
    rfl
  | _ => exact typeOf?_ofInteger? (n := x.toInt64.toInt) h

lemma typeOf?_read? {text : String} (h : Value.read? type text = some v) :
    heap.typeOf? v = some type := by
  cases type with
  | integer =>
    obtain ⟨n, hn, rfl⟩ := Option.map_eq_some_iff.mp h
    rw [typeOf?, Numeral.width_of_integer? hn]
  | float | double | bool =>
    obtain ⟨x, -, rfl⟩ := Option.map_eq_some_iff.mp h
    rfl
  | _ => cases h

/-- **Conversions give values of their type**, or fail as conversions do. -/
theorem yields_convert (type : Ty) (v : Value) : heap.Yields type (heap.convert type v) := by
  unfold convert
  split
  next hstring => exact hstring ▸ rfl
  · split
    next converted hconverted =>
      unfold Value.convertScalar? at hconverted
      split at hconverted
      · exact typeOf?_ofInteger? hconverted
      · exact typeOf?_ofFloat? hconverted
      · exact typeOf?_ofFloat? hconverted
      · exact typeOf?_read? hconverted
      · cases hconverted
    · exact rfl

end Operations

end Heap

end Parcel
