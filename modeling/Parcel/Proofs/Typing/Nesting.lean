import Mathlib.Data.List.Nodup
import Mathlib.Logic.Relation
import Parcel.Proofs.Typing.Heap

/-!
# How deep arrays are nested

Arrays are shared, and their elements can be assigned, so nothing on the heap says by itself that an
array is not among its own elements. Its type does: each step from an array to an element takes one
level of arrays away from the type. Hence a way along elements passes through no more arrays than
the type of its start has levels, and a value can be shown by showing the elements of arrays first.
-/

namespace Parcel

open Code List

/-- The number of levels of arrays in a type. -/
def Ty.levels : Ty → Nat
  | .array element => element.levels + 1
  | _ => 0

namespace Heap

variable {v : Value}

/-! ### Ways along elements -/

def HasElement (heap : Heap) (address : Address) (v : Value) : Prop :=
  ∃ elements, heap.elements? address = some elements ∧ v ∈ elements

/-- An array is an element of another one. -/
def Contains (heap : Heap) (outer inner : Address) : Prop :=
  heap.HasElement outer (.array inner)

/-- The arrays that a way from a value along elements passes through. It may end at any value,
before or in an array. -/
inductive Passes (heap : Heap) : Value → List Address → Prop
  | none (v : Value) : Passes heap v []
  | last {address elements} (h : heap.elements? address = some elements) :
    Passes heap (.array address) [address]
  | through {address v path} (h : heap.HasElement address v) (hpath : Passes heap v path) :
    Passes heap (.array address) (address :: path)

section Ways

variable {heap : Heap} {catalog : Catalog} (h : heap.Typed catalog)

variable {address : Address} {τ : Ty}

lemma elements?_eq_some_iff {elements : Array Value} : heap.elements? address = some elements ↔
      ∃ element, heap.get? address = some (.array element elements) := by
  unfold elements?
  constructor
  · intro helements
    split at helements
    next element _ hget =>
      obtain rfl := Option.some.inj helements
      exact ⟨element, hget⟩
    next => cases helements
  · rintro ⟨element, hget⟩
    rw [hget]

lemma get?_of_typeOf? (hv : heap.typeOf? (.array address) = some τ) :
    ∃ element elements, τ = .array element ∧ heap.get? address = some (.array element elements) := by
  cases shape hv with
  | array hget => exact ⟨_, _, rfl, hget⟩

include h

lemma Typed.typeOf?_of_hasElement (hv : heap.HasElement address v) :
    ∃ τ, heap.typeOf? (.array address) = some (.array τ) ∧ heap.typeOf? v = some τ := by
  obtain ⟨elements, helements, hmem⟩ := hv
  obtain ⟨τ, hget⟩ := elements?_eq_some_iff.mp helements
  exact ⟨τ, typeOf?_eq_some_iff.mpr (.array hget), h address _ hget v hmem⟩

/-- **A way along elements passes through no more arrays than the type of its start has levels.** -/
theorem Typed.length_le_levels {path : List Address} (hpath : heap.Passes v path)
    (hv : heap.typeOf? v = some τ) : path.length ≤ τ.levels := by
  induction hpath generalizing τ with
  | none => exact Nat.zero_le _
  | last =>
    obtain ⟨element, -, rfl, -⟩ := get?_of_typeOf? hv
    exact Nat.succ_le_succ (Nat.zero_le _)
  | through helement _ ih =>
    obtain ⟨σ, harray, hσ⟩ := h.typeOf?_of_hasElement helement
    obtain rfl := Option.some.inj (hv.symm.trans harray)
    exact Nat.succ_le_succ (ih hσ)

lemma Typed.levels_lt {outer inner : Address} (hreaches : Relation.TransGen heap.Contains outer inner) :
    ∃ σ τ, heap.typeOf? (.array outer) = some σ ∧ heap.typeOf? (.array inner) = some τ ∧
      τ.levels < σ.levels := by
  have step {outer inner : Address} (hcontains : heap.Contains outer inner) :
      ∃ σ τ, heap.typeOf? (.array outer) = some σ ∧ heap.typeOf? (.array inner) = some τ ∧
        τ.levels < σ.levels := by
    obtain ⟨τ, houter, hinner⟩ := h.typeOf?_of_hasElement hcontains
    exact ⟨.array τ, τ, houter, hinner, Nat.lt_succ_self _⟩
  induction hreaches with
  | single hcontains => exact step hcontains
  | tail _ hcontains ih =>
    obtain ⟨σ, ρ, houter, hmiddle, hlt⟩ := ih
    obtain ⟨ρ', τ, hmiddle', hinner, hlt'⟩ := step hcontains
    obtain rfl := Option.some.inj (hmiddle.symm.trans hmiddle')
    exact ⟨σ, τ, houter, hinner, Nat.lt_trans hlt' hlt⟩

/-- **No array is reached from its own elements.** -/
theorem Typed.acyclic (address : Address) : ¬ Relation.TransGen heap.Contains address address := by
  intro hcycle
  obtain ⟨σ, τ, hσ, hτ, hlt⟩ := h.levels_lt hcycle
  obtain rfl := Option.some.inj (hσ.symm.trans hτ)
  exact Nat.lt_irrefl _ hlt

end Ways

/-! ### The text of a value -/

/-- The text of a value. An array is shown by its elements, a container by its type alone. -/
inductive Displays (heap : Heap) : Value → String → Prop
  | integer (n : Word) : Displays heap (.integer n) (toString n.val)
  | float (x : Float32) : Displays heap (.float x) (valueLayout.float32 x)
  | double (x : Float) : Displays heap (.double x) (valueLayout.float x)
  | bool (b : Bool) : Displays heap (.bool b) (if b then "true" else "false")
  | string (text : String) : Displays heap (.string text) text
  | void : Displays heap .void ""
  | array {address elements texts} (h : heap.elements? address = some elements)
    (hall : List.Forall₂ (Displays heap) elements.toList texts) :
    Displays heap (.array address) ("[" ++ String.intercalate ", " texts ++ "]")
  | container {address type fields} (h : heap.get? address = some (.container type fields)) :
    Displays heap (.container address) ("<" ++ type.shown ++ ">")

/-- What becomes of a value that is converted to a type. The text of the value is needed for a text,
and to say what could not be converted. -/
inductive Converts (heap : Heap) (type : Ty) (v : Value) : Except FaultCause Value → Prop
  | text {text : String} (h : type = .string) (htext : heap.Displays v text) :
    Converts heap type v (.ok (.string text))
  | scalar {w : Value} (h : type ≠ .string) (hw : v.convertScalar? type = some w) :
    Converts heap type v (.ok w)
  | failure {text : String} (h : type ≠ .string) (hnone : v.convertScalar? type = none)
    (htext : heap.Displays v text) : Converts heap type v (.error (.conversionFailed text type.name))

section Texts

variable {heap : Heap} {catalog : Catalog}

variable {address : Address} {object : Object}

lemma elementsShown_eq_map (elements : List Snapshot) :
    Snapshot.elementsShown elements = elements.map Snapshot.shown := by
  induction elements with
  | nil => rfl
  | cons element elements ih => rw [Snapshot.elementsShown, ih, map_cons]

lemma eq_of_displays_all {values : List Value} {texts texts' : List String}
    (h : ∀ v ∈ values, ∀ text text', heap.Displays v text → heap.Displays v text' → text = text')
    (htexts : List.Forall₂ heap.Displays values texts)
    (htexts' : List.Forall₂ heap.Displays values texts') : texts = texts' := by
  induction htexts generalizing texts' with
  | nil =>
    cases htexts'
    rfl
  | cons htext _ ih =>
    obtain ⟨hfirst, hrest⟩ := forall_mem_cons.mp h
    cases htexts' with
    | cons htext' hall' => rw [hfirst _ _ htext htext', ih hrest hall']

lemma Typed.eq_of_displays (h : heap.Typed catalog) {τ : Ty} {text text' : String}
    (hv : heap.typeOf? v = some τ) (htext : heap.Displays v text) (htext' : heap.Displays v text') :
    text = text' := by
  induction τ generalizing v text text' with
  | array τ ih =>
    cases shape hv with
    | array hget =>
      cases htext with
      | array helements hall =>
        cases htext' with
        | array helements' hall' =>
          obtain rfl := Option.some.inj (helements.symm.trans helements')
          obtain rfl := Option.some.inj
            (helements.symm.trans (elements?_eq_some_iff.mpr ⟨_, hget⟩))
          have hsame := eq_of_displays_all (fun v hv _ _ =>
            ih (h _ _ hget v (Array.mem_toList_iff.mp hv))) hall hall'
          rw [hsame]
  | container =>
    cases shape hv with
    | container =>
      cases htext with
      | container hobject =>
        cases htext' with
        | container hobject' =>
          cases hobject.symm.trans hobject'
          rfl
  | unresolved => cases shape hv
  | _ =>
    cases shape hv
    cases htext
    cases htext'
    rfl

/-! ### The depth that a value is shown to -/

/-- Arrays outside of a value of a type: they have more levels than the type. -/
structure Outer (heap : Heap) (τ : Ty) (seen : List Address) : Prop where
  distinct : seen.Nodup
  levels : ∀ address ∈ seen, ∃ σ, heap.typeOf? (.array address) = some σ ∧ τ.levels < σ.levels

lemma lt_size_of_get? (hget : heap.get? address = some object) :
    address.index < heap.objects.size :=
  (Array.getElem?_eq_some_iff.mp hget).1

lemma length_le_size {seen : List Address} (hdistinct : seen.Nodup)
    (hseen : ∀ address ∈ seen, ∃ object, heap.get? address = some object) :
    seen.length ≤ heap.objects.size := by
  have hinjective : Function.Injective Address.index := by
    rintro ⟨index⟩ ⟨index'⟩ rfl
    rfl
  have hsubset : seen.map Address.index ⊆ List.range heap.objects.size := by
    intro index hindex
    obtain ⟨address, haddress, rfl⟩ := mem_map.mp hindex
    obtain ⟨object, hget⟩ := hseen address haddress
    exact mem_range.mpr (lt_size_of_get? hget)
  simpa using (subperm_of_subset (hdistinct.map hinjective) hsubset).length_le

namespace Outer

variable {τ : Ty} {seen : List Address}

lemma exists_object (hseen : heap.Outer τ seen) (haddress : address ∈ seen) :
    ∃ element elements, heap.get? address = some (.array element elements) := by
  obtain ⟨σ, hσ, -⟩ := hseen.levels address haddress
  obtain ⟨element, elements, -, hget⟩ := get?_of_typeOf? hσ
  exact ⟨element, elements, hget⟩

lemma length_lt_size (hseen : heap.Outer τ seen) (hget : heap.get? address = some object)
    (hnew : address ∉ seen) : seen.length < heap.objects.size := by
  have hdistinct : (address :: seen).Nodup := nodup_cons.mpr ⟨hnew, hseen.distinct⟩
  refine length_le_size hdistinct (forall_mem_cons.mpr ⟨⟨object, hget⟩, fun other hother => ?_⟩)
  obtain ⟨element, elements, hother⟩ := hseen.exists_object hother
  exact ⟨_, hother⟩

lemma not_mem_array (hseen : heap.Outer (.array τ) seen)
    (hv : heap.typeOf? (.array address) = some (.array τ)) : address ∉ seen := by
  intro hmem
  obtain ⟨σ, hσ, hlt⟩ := hseen.levels address hmem
  obtain rfl := Option.some.inj (hv.symm.trans hσ)
  exact Nat.lt_irrefl _ hlt

lemma not_mem_container (hseen : heap.Outer τ seen) {type : Ty} {fields : Fields}
    (hget : heap.get? address = some (.container type fields)) : address ∉ seen := by
  intro hmem
  obtain ⟨element, elements, harray⟩ := hseen.exists_object hmem
  cases hget.symm.trans harray

lemma element (hseen : heap.Outer (.array τ) seen)
    (hv : heap.typeOf? (.array address) = some (.array τ)) : heap.Outer τ (address :: seen) where
  distinct := nodup_cons.mpr ⟨hseen.not_mem_array hv, hseen.distinct⟩
  levels := by
    refine forall_mem_cons.mpr ⟨⟨.array τ, hv, Nat.lt_succ_self _⟩, fun other hother => ?_⟩
    obtain ⟨σ, hσ, hlt⟩ := hseen.levels other hother
    exact ⟨σ, hσ, Nat.lt_of_succ_lt hlt⟩

end Outer

/-- A value is shown in full if the depth is at least the number of objects that are not outside of
it. -/
lemma Typed.displays_snapshotTo (h : heap.Typed catalog) {depth : Nat} {seen : List Address}
    {τ : Ty} (hv : heap.typeOf? v = some τ) (hseen : heap.Outer τ seen)
    (hdepth : heap.objects.size ≤ seen.length + depth) :
    heap.Displays v (heap.snapshotTo depth v).shown := by
  induction τ generalizing depth seen v with
  | array τ ih =>
    cases shape hv with
    | @array address _ elements hget =>
      -- the array itself is one of the objects that are not outside
      have hlt := hseen.length_lt_size hget (hseen.not_mem_array hv)
      obtain ⟨depth, rfl⟩ : ∃ rest, depth = rest + 1 := Nat.exists_eq_add_one_of_ne_zero (by omega)
      rw [snapshotTo, hget, Snapshot.shown, elementsShown_eq_map, map_map]
      refine .array (elements?_eq_some_iff.mpr ⟨τ, hget⟩) ?_
      rw [forall₂_map_right_iff, forall₂_same]
      intro v hmem
      have hdepth' : heap.objects.size ≤ (address :: seen).length + depth := by
        rw [length_cons]
        omega
      exact ih (h address _ hget v (Array.mem_toList_iff.mp hmem)) (hseen.element hv) hdepth'
  | container =>
    cases shape hv with
    | container hget =>
      have hlt := hseen.length_lt_size hget (hseen.not_mem_container hget)
      obtain ⟨depth, rfl⟩ : ∃ rest, depth = rest + 1 := Nat.exists_eq_add_one_of_ne_zero (by omega)
      rw [snapshotTo, hget, Snapshot.shown]
      exact .container hget
  | unresolved => cases shape hv
  | _ =>
    cases shape hv
    rw [snapshotTo]
    constructor

/-- **The text that a value is shown as is its text.** -/
theorem Typed.displays_shown (h : heap.Typed catalog) {τ : Ty} (hv : heap.typeOf? v = some τ) :
    heap.Displays v (heap.shown v) :=
  h.displays_snapshotTo hv ⟨nodup_nil, forall_mem_nil _⟩ (Nat.le_add_left _ _)

lemma converts_convert (hv : heap.Displays v (heap.shown v)) (type : Ty) :
    heap.Converts type v (heap.convert type v) := by
  unfold convert
  split
  next hstring => exact .text hstring hv
  next hstring =>
    split
    next w hw => exact .scalar hstring hw
    next hnone => exact .failure hstring hnone hv

end Texts

/-! ### Grounded values -/

/-- A value is of a type, and ways from it along elements pass through no more arrays than the type
has levels. The value has one text, the one that it is shown as, and with it all conversions come to
an end. -/
structure Grounded (heap : Heap) (τ : Ty) (v : Value) : Prop where
  type : heap.typeOf? v = some τ
  levels : ∀ path, heap.Passes v path → path.length ≤ τ.levels
  displays : ∀ text, heap.Displays v text ↔ text = heap.shown v
  converts : ∀ type, heap.Converts type v (heap.convert type v)

/-- **Values of a type are grounded in it**, if all elements have their types. -/
theorem Typed.grounded {heap : Heap} {catalog : Catalog} (h : heap.Typed catalog) {τ : Ty}
    (hv : heap.typeOf? v = some τ) : heap.Grounded τ v where
  type := hv
  levels _ hpath := h.length_le_levels hpath hv
  displays text := by
    have hshown := h.displays_shown hv
    constructor
    · exact fun htext => h.eq_of_displays hv htext hshown
    · rintro rfl
      exact hshown
  converts := converts_convert (h.displays_shown hv)

end Heap

end Parcel
