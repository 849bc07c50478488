import Parcel.Proofs.Machine.Follows
import Parcel.Proofs.Typing.Heap

/-!
# Conversions of typed values

The way from one type to another is decided by the families and sizes of the types, a value is
converted by what it is. The two agree: where there is a way, only a text can fail to be converted.
What a machine puts in the place of a value that cannot be converted is of the type that was asked
for.
-/

namespace Parcel

open Code List

/-! ### The ways between types -/

namespace Conversion

/-- There is a way between types that are not the same, so a conversion has something to do. -/
def IsMade (way : Conversion) : Prop :=
  way = implicit ∨ way = explicit

lemma not_isMade_identity : ¬ identity.IsMade := by simp [IsMade]

lemma not_isMade_impossible : ¬ impossible.IsMade := by simp [IsMade]

variable {source target : Ty}

lemma IsMade.ne_unresolved (h : (classify source target).IsMade) : target ≠ .unresolved := by
  rintro rfl
  unfold classify at h
  split at h
  · exact not_isMade_identity h
  · rw [show isInert .unresolved = true from rfl, Bool.or_true, if_pos rfl] at h
    exact not_isMade_impossible h

/-- Conversions are made between numbers, from texts and to texts only. -/
lemma IsMade.cases (h : (classify source target).IsMade) :
    source.isNumeric = true ∧ target.isNumeric = true ∨ target = .string ∨ source = .string := by
  unfold classify at h
  split at h
  · exact absurd h not_isMade_identity
  split at h
  · exact absurd h not_isMade_impossible
  split at h
  case h_5 =>
    split at h
    next hstring => exact .inr (by simpa using hstring)
    next => exact absurd h not_isMade_impossible
  all_goals
    rename_i hsource htarget
    exact .inl (by simp [Ty.isNumeric, hsource, htarget])

/-- Implicit conversions are made between numbers only. -/
lemma isNumeric_of_implicit (h : classify source target = .implicit) :
    source.isNumeric = true ∧ target.isNumeric = true := by
  unfold classify at h
  split at h
  · cases h
  split at h
  · cases h
  split at h
  case h_5 => split at h <;> cases h
  all_goals
    rename_i hsource htarget
    simp [Ty.isNumeric, hsource, htarget]

end Conversion

/-! ### Values -/

namespace Heap

variable {heap : Heap} {source target : Ty} {v : Value}

lemma exists_ofInteger? (h : target.isNumeric = true) (n : Int) :
    ∃ v, Value.ofInteger? target n = some v := by
  cases target with
  | integer | float | double => exact ⟨_, rfl⟩
  | _ => cases h

lemma exists_ofFloat? (h : target.isNumeric = true) (x : Float) :
    ∃ v, Value.ofFloat? target x = some v := by
  cases target with
  | integer | float | double => exact ⟨_, rfl⟩
  | _ => cases h

lemma exists_convertScalar? (hv : heap.typeOf? v = some source) (hsource : source.isNumeric = true)
    (htarget : target.isNumeric = true) : ∃ v', v.convertScalar? target = some v' := by
  cases shape hv with
  | integer n => exact exists_ofInteger? htarget n.val
  | float x => exact exists_ofFloat? htarget x.toFloat
  | double x => exact exists_ofFloat? htarget x
  | _ => cases hsource

lemma typeOf?_of_convert {v' : Value} (h : heap.convert target v = .ok v') :
    heap.typeOf? v' = some target := by
  have hyields := heap.yields_convert target v
  rwa [h] at hyields

/-- **What is no text can be converted** wherever there is a way. -/
theorem exists_convert (hv : heap.typeOf? v = some source)
    (hway : (Conversion.classify source target).IsMade) (hsource : source ≠ .string) :
    ∃ v', heap.convert target v = .ok v' ∧ heap.typeOf? v' = some target := by
  suffices hok : ∃ v', heap.convert target v = .ok v' by
    obtain ⟨v', hv'⟩ := hok
    exact ⟨v', hv', typeOf?_of_convert hv'⟩
  unfold convert
  rcases hway.cases with ⟨hnumber, hnumber'⟩ | htarget | hstring
  · split
    · exact ⟨_, rfl⟩
    · obtain ⟨v', hv'⟩ := exists_convertScalar? hv hnumber hnumber'
      exact ⟨v', by rw [hv']⟩
  · exact ⟨_, if_pos htarget⟩
  · exact absurd hstring hsource

lemma convert_string (text : String) (target : Ty) :
    (∃ v', heap.convert target (.string text) = .ok v' ∧ heap.typeOf? v' = some target) ∨
      heap.convert target (.string text) = .error (.conversionFailed text target.name) := by
  cases hconvert : heap.convert target (.string text) with
  | ok v' => exact .inl ⟨v', rfl, typeOf?_of_convert hconvert⟩
  | error =>
    refine .inr ?_
    unfold convert at hconvert
    split at hconvert
    · cases hconvert
    split at hconvert
    · cases hconvert
    · cases hconvert
      rw [shown, snapshot, snapshotTo, Snapshot.shown]

/-! ### Default values -/

end Heap

def Catalog.Registers (catalog : Catalog) (type : Ty) : Prop :=
  ∀ name, type = .container name → (catalog.container? type).isSome = true

/-- No container contains itself: from a container to its fields, some rank of types goes down. -/
def Catalog.Grounded (catalog : Catalog) : Prop :=
  ∃ rank : Ty → Nat, ∀ container ∈ catalog.containers, ∀ field ∈ container.fields,
    rank field.type < rank container.type

namespace Heap

variable {heap : Heap} {catalog : Catalog}

lemma extends_defaultTo (catalog : Catalog) (depth : Nat) (heap : Heap) (type : Ty) :
    heap.Extends (defaultTo catalog depth heap type).2 := by
  induction depth generalizing heap type with
  | zero =>
    cases type with
    | array =>
      rw [defaultTo]
      exact extends_allocate heap _
    | _ => exact .refl heap
  | succ depth ih =>
    cases type with
    | array =>
      rw [defaultTo]
      exact extends_allocate heap _
    | container name =>
      rw [defaultTo]
      split
      next container _ =>
        refine Extends.trans ?_ (extends_allocate _ _)
        -- the heap grows with each field
        have hfields (fields : List Var) (made : Fields × Heap) (hmade : heap.Extends made.2) :
            heap.Extends (fields.foldl (fun made field =>
              (made.1.set field.name (defaultTo catalog depth made.2 field.type).1,
                (defaultTo catalog depth made.2 field.type).2)) made).2 := by
          induction fields generalizing made with
          | nil => exact hmade
          | cons field fields ihs => exact ihs _ (hmade.trans (ih made.2 field.type))
        exact hfields container.fields ([], heap) (.refl heap)
      · exact .refl heap
    | _ => exact .refl heap

/-- **Default values have the type that is asked for**, if it is resolved and its container is
known. -/
theorem typeOf?_default {type : Ty} (htype : type ≠ .unresolved) (hregistered : catalog.Registers type) :
    (heap.default catalog type).2.typeOf? (heap.default catalog type).1 = some type := by
  cases type with
  | unresolved => exact absurd rfl htype
  | array =>
    rw [default, defaultTo]
    exact typeOf?_eq_some_iff.mpr (.array ((get?_allocate heap _ _).trans (if_pos rfl)))
  | container name =>
    obtain ⟨container, hcontainer⟩ := Option.isSome_iff_exists.mp (hregistered name rfl)
    have hpos : 0 < catalog.containers.length :=
      length_pos_of_mem (mem_of_find?_eq_some hcontainer)
    obtain ⟨depth, hdepth⟩ := Nat.exists_eq_succ_of_ne_zero (Nat.ne_of_gt hpos)
    rw [default, hdepth, defaultTo]
    simp only [hcontainer]
    exact typeOf?_eq_some_iff.mpr (.container ((get?_allocate _ _ _).trans (if_pos rfl)))
  | _ =>
    rw [default, defaultTo]
    rfl

/-- Fields with their default values, without a bound on how deep containers are nested. -/
def defaultFields (heap : Heap) (catalog : Catalog) (fields : List Var) : Fields × Heap :=
  fields.foldl (fun (made, heap) field =>
    let (value, heap) := heap.default catalog field.type
    (Fields.set made field.name value, heap)) ([], heap)

section Nesting

/-- The containers up to the rank of a type. Those that a value of the type is made of are among
them. -/
def nesting (catalog : Catalog) (rank : Ty → Nat) (type : Ty) : Nat :=
  catalog.containers.countP (rank ·.type ≤ rank type)

variable {rank : Ty → Nat} {name : String} {container : Container} {field : Var}

lemma nesting_lt (hcontainer : catalog.container? (.container name) = some container)
    (hrank : rank field.type < rank container.type) :
    nesting catalog rank field.type < nesting catalog rank (.container name) := by
  have htype : container.type = .container name := by simpa using find?_some hcontainer
  rw [nesting, nesting, ← htype]
  obtain ⟨before, after, hsplit⟩ := append_of_mem (mem_of_find?_eq_some hcontainer)
  have hmono (l : List Container) : l.countP (rank ·.type ≤ rank field.type) ≤
      l.countP (rank ·.type ≤ rank container.type) := by
    refine countP_mono_left fun other _ h => ?_
    exact decide_eq_true (Nat.le_trans (of_decide_eq_true h) (Nat.le_of_lt hrank))
  -- the container itself is counted on the right only
  have hleft := hmono before
  have hright := hmono after
  rw [hsplit, countP_append, countP_append, countP_cons_of_neg (by simpa using hrank),
    countP_cons_of_pos (by simp)]
  omega

lemma defaultTo_of_nesting_le (hrank : ∀ container ∈ catalog.containers,
      ∀ field ∈ container.fields, rank field.type < rank container.type) {depth depth' : Nat}
    (type : Ty) (h : nesting catalog rank type ≤ depth) (h' : nesting catalog rank type ≤ depth')
    (heap : Heap) : defaultTo catalog depth heap type = defaultTo catalog depth' heap type := by
  induction hn : nesting catalog rank type using Nat.strongRecOn
    generalizing type depth depth' heap with
  | ind n ih =>
  cases type with
  | container name =>
    cases hcontainer : catalog.container? (.container name) with
    | none => cases depth <;> cases depth' <;> simp [defaultTo, hcontainer]
    | some container =>
      have hmem := mem_of_find?_eq_some hcontainer
      have hpos : 0 < nesting catalog rank (.container name) := by
        refine countP_pos_iff.mpr ⟨container, hmem, ?_⟩
        rw [show container.type = .container name by simpa using find?_some hcontainer]
        exact decide_eq_true (Nat.le_refl _)
      obtain ⟨d, rfl⟩ := Nat.exists_eq_add_one_of_ne_zero (Nat.ne_of_gt (Nat.lt_of_lt_of_le hpos h))
      obtain ⟨d', rfl⟩ := Nat.exists_eq_add_one_of_ne_zero (Nat.ne_of_gt (Nat.lt_of_lt_of_le hpos h'))
      have hfields (made : Fields × Heap) (field : Var) (hfield : field ∈ container.fields) :
          defaultTo catalog d made.2 field.type = defaultTo catalog d' made.2 field.type := by
        have hlt := nesting_lt hcontainer (hrank container hmem field hfield)
        exact ih _ (hn ▸ hlt) field.type (by omega) (by omega) made.2 rfl
      rw [defaultTo, defaultTo]
      simp only [hcontainer]
      rw [foldl_ext _ _ _ fun made field hfield => by rw [hfields made field hfield]]
  | _ => rw [defaultTo, defaultTo]

/-- **A container is made of the default values of its fields**, so the bound is never reached. -/
theorem default_container (h : catalog.Grounded)
    (hcontainer : catalog.container? (.container name) = some container) (heap : Heap) :
    heap.default catalog (.container name) =
      let made := heap.defaultFields catalog container.fields
      made.2.newContainer (.container name) made.1 := by
  obtain ⟨rank, hrank⟩ := h
  have hmem := mem_of_find?_eq_some hcontainer
  obtain ⟨depth, hdepth⟩ :=
    Nat.exists_eq_add_one_of_ne_zero (Nat.ne_of_gt (length_pos_of_mem hmem))
  have hfields (made : Fields × Heap) (field : Var) (hfield : field ∈ container.fields) :
      defaultTo catalog depth made.2 field.type = made.2.default catalog field.type := by
    have hlt := nesting_lt hcontainer (hrank container hmem field hfield)
    have hle : nesting catalog rank (.container name) ≤ catalog.containers.length :=
      countP_le_length
    exact defaultTo_of_nesting_le hrank field.type (by omega) (by omega) made.2
  rw [default, hdepth, defaultTo]
  simp only [hcontainer]
  rw [foldl_ext _ _ _ fun made field hfield => by rw [hfields made field hfield]]
  rfl

end Nesting

end Heap

/-! ### Evaluation -/

/-- How the evaluation of a conversion goes on in a state in which its operand, of type `source`,
has a value. It gives a value of the type that is asked for. Only if the operand is a text it may
fail instead: then a strict run stops with a recoverable fault, and any other notes the fault and
goes on with the default value, which is of the type as well. -/
def Concludes (m : Machine) (source type : Ty) (span : Span) (s : State)
    (result : Exec.Result Value) : Prop :=
  (∃ v, result = .ok v s ∧ s.heap.typeOf? v = some type) ∨
    source = .string ∧ ∃ text,
      let fault : Fault := ⟨.conversionFailed text type.name, some ⟨span, s.file⟩⟩
      let made := s.heap.default m.catalog type
      fault.cause.isRecoverable = true ∧ s.heap.Extends made.2 ∧
        made.2.typeOf? made.1 = some type ∧
        result = if m.mode.strict then .error (.fault fault) { s with heap := made.2 }
          else .ok made.1 (State.addRecovered fault { s with heap := made.2 })

lemma orDefault_conversionFailed (m : Machine) (text : String) (type : Ty) (span : Span) (s : State) :
    let fault : Fault := ⟨.conversionFailed text type.name, some ⟨span, s.file⟩⟩
    let made := s.heap.default m.catalog type
    orDefault m (.error fault.cause) type span s =
      if m.mode.strict then .error (.fault fault) { s with heap := made.2 }
      else .ok made.1 (State.addRecovered fault { s with heap := made.2 }) := by
  intro fault made
  calc orDefault m (.error fault.cause) type span s
      = recover m.mode fault.cause span made.1 { s with heap := made.2 } :=
        exec_bind_ok (onHeap_run _ s) _
    _ = _ := by
      unfold recover
      rw [exec_bind_ok (get_run _)]
      cases m.mode.strict with
      | true | false => rfl

/-- **The evaluation of a conversion** whose operand has a value of its type. -/
theorem concludes_eval {m : Machine} {invoke : Invoke} {operand : Expr} {source type : Ty}
    (hway : (Conversion.classify source type).IsMade) (hregistered : m.catalog.Registers type)
    {s t : State} {v : Value} (hoperand : eval m invoke operand s = .ok v t)
    (hv : t.heap.typeOf? v = some source) (span : Span) :
    Concludes m source type span t (eval m invoke (.conversion operand type span) s) := by
  have heval : eval m invoke (.conversion operand type span) s =
      placing span (orDefault m (t.heap.convert type v) type span) t := by
    rw [eval, placing, exec_bind_ok hoperand, exec_bind_ok (get_run t)]
    rfl
  have given {v' : Value} (hv' : t.heap.convert type v = .ok v' ∧ t.heap.typeOf? v' = some type) :
      Concludes m source type span t (eval m invoke (.conversion operand type span) s) := by
    refine .inl ⟨v', ?_, hv'.2⟩
    rw [heval, hv'.1]
    rfl
  by_cases hsource : source = .string
  · rw [hsource] at hv
    cases Heap.shape hv with
    | string text =>
      rcases t.heap.convert_string text type with ⟨v', hv'⟩ | hfailed
      · exact given hv'
      · refine .inr ⟨hsource, text, rfl, Heap.extends_defaultTo m.catalog _ t.heap type,
          Heap.typeOf?_default hway.ne_unresolved hregistered, ?_⟩
        rw [heval, hfailed, placing, orDefault_conversionFailed]
        cases m.mode.strict with
        | true | false => rfl
  · obtain ⟨v', hv'⟩ := Heap.exists_convert hv hway hsource
    exact given hv'

end Parcel
