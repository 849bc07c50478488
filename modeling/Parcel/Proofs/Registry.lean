import Parcel.Proofs.Keyed
import Parcel.Symbol.Package

/-!
# Packages after any calls

A package begins empty and is filled by registrations and loads, which come in any order. Its
functions are found through an index of places in their list, so the two have to stay in step.

## Main definitions

* `Call`, `Package.after`, `Package.accepted`
* `Package.Records` — what a package has after certain registrations and loads.

## Main results

* `Package.Records.run?`, `Package.Records.after` — what one call and what any calls keep.
* `registry_stays_in_step`
-/

namespace Parcel

open List

/-! ### Calls -/

/-- A call that changes a package, unless it is refused. -/
inductive Call where
  | function (f : FunctionSymbol)
  | global (v : Var)
  | load (package : String) (included : Bool)

namespace Call

/-- What a call makes of a package, or nothing if it is refused. -/
def run? (p : Package) : Call → Option Package
  | function f => p.registerFunction? f
  | global v => p.registerGlobal? v
  | load package included => some (p.addLoad package included)

def function? : Call → Option FunctionSymbol
  | function f => some f
  | _ => none

def global? : Call → Option Var
  | global v => some v
  | _ => none

def loaded? : Call → Option String
  | load package _ => some package
  | _ => none

def included? : Call → Option String
  | load package true => some package
  | _ => none

lemma mem_loaded_iff {calls : List Call} {package : String} :
    package ∈ calls.filterMap loaded? ↔ ∃ included, load package included ∈ calls := by
  rw [mem_filterMap]
  constructor
  · rintro ⟨_ | _ | ⟨_, included⟩, hcall, ⟨⟩⟩
    exact ⟨included, hcall⟩
  · exact fun ⟨included, hcall⟩ => ⟨_, hcall, rfl⟩

end Call

namespace Package

/-- The package after calls, of which the refused ones are passed over. -/
def after (p : Package) : List Call → Package
  | [] => p
  | call :: calls => ((call.run? p).getD p).after calls

/-- The calls that are not refused, where each comes after the ones before it. -/
def accepted (p : Package) : List Call → List Call
  | [] => []
  | call :: calls =>
    match call.run? p with
    | some q => call :: q.accepted calls
    | none => p.accepted calls

end Package

/-! ### The table of functions -/

/-- The index has the names of the functions, each with its place. -/
def FunctionTable.Indexed (t : FunctionTable) : Prop :=
  t.index = (t.list.map (·.name)).zipIdx

namespace FunctionTable.Indexed

variable {t : FunctionTable} {name : String}

lemma push (h : t.Indexed) (f : FunctionSymbol) : (t.push f).Indexed := by
  simp [Indexed, FunctionTable.push, zipIdx_append, h.symm]

lemma contains_iff (h : t.Indexed) : t.contains name = true ↔ name ∈ t.list.map (·.name) := by
  rw [contains, h, lookup_isSome_iff]
  nth_rewrite 2 [← zipIdx_map_fst 0 (t.list.map (·.name))]
  rw [mem_map]
  exact exists_congr fun entry => and_congr_right fun _ => beq_iff_eq.trans eq_comm

/-- If no two functions have the same name, the index leads to exactly the places where they are. -/
lemma lookup_iff (h : t.Indexed) (hnodup : (t.list.map (·.name)).Nodup) {place : Nat} :
    t.index.lookup name = some place ↔ ∃ f, t.list[place]? = some f ∧ f.name = name := by
  rw [h, lookup_eq_some_iff_mem (by rwa [zipIdx_map_fst]), mk_mem_zipIdx_iff_getElem?,
    getElem?_map, Option.map_eq_some_iff]

lemma find?_eq (h : t.Indexed) (hnodup : (t.list.map (·.name)).Nodup) :
    t.find? name = t.list.find? (·.name = name) := by
  refine Option.ext fun f => ?_
  rw [find?, find?_key_eq_some_iff hnodup, Option.bind_eq_some_iff, mem_iff_getElem?]
  simp only [h.lookup_iff hnodup]
  grind

end FunctionTable.Indexed

/-! ### One call -/

/-- What a package has after functions and variables were registered, packages were loaded and some
of them included, each in the order of the calls. -/
structure Package.Records (name : String) (registered : List FunctionSymbol) (declared : List Var)
    (loaded included : List String) (p : Package) : Prop where
  name : p.name = name
  functions : Firsts (·.name) registered p.functions
  indexed : p.table.Indexed
  globals : Firsts (·.name) declared p.globals
  loads : Firsts id loaded p.loads
  includes : Firsts id included p.includes

lemma Firsts.addName {all names : List String} (h : Firsts id all names) (name : String) :
    Firsts id (all ++ [name]) (Package.addName names name) := by
  have hmem : id name ∈ names.map id ↔ name ∈ names := by rw [map_id, id]
  unfold Package.addName
  split
  next hold => exact h.concat_old (hmem.mpr hold)
  next hnew => exact h.concat_new (mt hmem.mp hnew)

namespace Package

section Step

variable {name : String} {registered : List FunctionSymbol} {declared : List Var}
  {loaded included : List String} {p : Package}

lemma Records.registerFunction? (h : p.Records name registered declared loaded included)
    (f : FunctionSymbol) :
    ((p.registerFunction? f).getD p).Records name (registered ++ [f]) declared loaded included := by
  unfold Package.registerFunction?
  split
  next htaken =>
    exact { h with functions := h.functions.concat_old (h.indexed.contains_iff.mp htaken) }
  next hfree =>
    have hnew := mt h.indexed.contains_iff.mpr hfree
    exact { h with functions := h.functions.concat_new hnew, indexed := h.indexed.push f }

lemma Records.registerGlobal? (h : p.Records name registered declared loaded included) (v : Var) :
    ((p.registerGlobal? v).getD p).Records name registered (declared ++ [v]) loaded included := by
  unfold Package.registerGlobal?
  split
  next htaken =>
    exact { h with globals := h.globals.concat_old (find?_key_isSome_iff.mp htaken) }
  next hfree =>
    exact { h with globals := h.globals.concat_new (mt find?_key_isSome_iff.mpr hfree) }

lemma Records.run? (h : p.Records name registered declared loaded included) (call : Call) :
    ((call.run? p).getD p).Records name (registered ++ call.function?.toList)
      (declared ++ call.global?.toList) (loaded ++ call.loaded?.toList)
      (included ++ call.included?.toList) := by
  cases call with
  | function f =>
    simp only [Call.global?, Call.loaded?, Call.included?, Option.toList_none, append_nil]
    exact h.registerFunction? f
  | global v =>
    simp only [Call.function?, Call.loaded?, Call.included?, Option.toList_none, append_nil]
    exact h.registerGlobal? v
  | load package searched =>
    simp only [Call.function?, Call.global?, Option.toList_none, append_nil]
    refine { h with loads := h.loads.addName package, includes := ?_ }
    cases searched with
    | true => exact h.includes.addName package
    | false => exact (append_nil included).symm ▸ h.includes

/-! ### Any calls -/

lemma filterMap_cons_eq {α β : Type} (f : α → Option β) (a : α) (l : List α) :
    (a :: l).filterMap f = (f a).toList ++ l.filterMap f := by
  rw [filterMap_cons]
  cases f a <;> rfl

lemma Records.after (h : p.Records name registered declared loaded included) (calls : List Call) :
    (p.after calls).Records name (registered ++ calls.filterMap Call.function?)
      (declared ++ calls.filterMap Call.global?) (loaded ++ calls.filterMap Call.loaded?)
      (included ++ calls.filterMap Call.included?) := by
  induction calls generalizing p registered declared loaded included with
  | nil => simpa only [Package.after, filterMap_nil, append_nil] using h
  | cons call calls ih =>
    simpa only [Package.after, filterMap_cons_eq, append_assoc] using ih (h.run? call)

end Step

/-- A registration that is not refused adds one member at the end. -/
lemma members_run? {p q : Package} {call : Call} (h : call.run? p = some q) :
    q.functions = p.functions ++ call.function?.toList ∧
      q.globals = p.globals ++ call.global?.toList := by
  have hnil {α : Type} (l : List α) : l = l ++ [] := (append_nil l).symm
  cases call with
  | function =>
    obtain ⟨-, ⟨⟩⟩ := Option.ite_none_left_eq_some.mp h
    exact ⟨rfl, hnil _⟩
  | global =>
    obtain ⟨-, ⟨⟩⟩ := Option.ite_none_left_eq_some.mp h
    exact ⟨hnil _, rfl⟩
  | load =>
    cases h
    exact ⟨hnil _, hnil _⟩

/-- After any calls, a package has what the accepted ones add, and the refused ones leave no
trace. -/
lemma after_eq (p : Package) (calls : List Call) :
    (p.after calls).functions = p.functions ++ (p.accepted calls).filterMap Call.function? ∧
      (p.after calls).globals = p.globals ++ (p.accepted calls).filterMap Call.global? ∧
      p.after (p.accepted calls) = p.after calls := by
  induction calls generalizing p with
  | nil => exact ⟨(append_nil _).symm, (append_nil _).symm, rfl⟩
  | cons call calls ih =>
    rw [after, accepted]
    cases hcall : call.run? p with
    | none => exact ih p
    | some q =>
      obtain ⟨hfunctions, hglobals⟩ := members_run? hcall
      simpa only [after, hcall, Option.getD_some, filterMap_cons_eq, hfunctions, hglobals,
        append_assoc] using ih q

end Package

/-- **The parts of a package stay in step.** After any calls on a new package, no two functions and
no two variables have the same name. The index has a place for a name if and only if the function in
that place has it, so a look-up never leads out of the list, and it finds the first function
registered under the name. Functions and variables are what the accepted registrations add, in their
order; refused are those whose name came before, and they leave no trace. Loads and includes have no
name twice, in the order of the first calls, and every included package is loaded. Qualified calls
may name the package itself and what it loads. -/
theorem registry_stays_in_step (name : String) (calls : List Call) :
    let p := Package.after { name } calls
    let accepted := Package.accepted { name } calls
    let registered := calls.filterMap Call.function?
    let declared := calls.filterMap Call.global?
    (p.functions.map (·.name)).Nodup ∧ (p.globals.map (·.name)).Nodup ∧
    (∀ key place, p.table.index.lookup key = some place ↔
      ∃ f, p.functions[place]? = some f ∧ f.name = key) ∧
    p.table.index.length = p.functions.length ∧
    (∀ key, p.function? key = registered.find? (·.name = key)) ∧
    (∀ key, p.global? key = declared.find? (·.name = key)) ∧
    p.functions = accepted.filterMap Call.function? ∧ p.globals = accepted.filterMap Call.global? ∧
    (∀ f, p.registerFunction? f = none ↔ f.name ∈ registered.map (·.name)) ∧
    (∀ v, p.registerGlobal? v = none ↔ v.name ∈ declared.map (·.name)) ∧
    Package.after { name } accepted = p ∧
    p.loads = (calls.filterMap Call.loaded?).eraseDups ∧ p.loads.Nodup ∧
    p.includes = (calls.filterMap Call.included?).eraseDups ∧ p.includes.Nodup ∧
    p.includes ⊆ p.loads ∧
    ∀ other, p.canReference other = true ↔ other = name ∨ ∃ included, .load other included ∈ calls := by
  intro p accepted registered declared
  have hnew : ({ name } : Package).Records name [] [] [] [] := ⟨rfl, .nil, rfl, .nil, .nil, .nil⟩
  have h : p.Records name registered declared (calls.filterMap Call.loaded?)
      (calls.filterMap Call.included?) := hnew.after calls
  have hloads : p.loads = (calls.filterMap Call.loaded?).eraseDups := by
    simpa only [map_id] using h.loads.keys
  have hincludes : p.includes = (calls.filterMap Call.included?).eraseDups := by
    simpa only [map_id] using h.includes.keys
  have hloaded (other : String) : other ∈ p.loads ↔ ∃ included, .load other included ∈ calls := by
    rw [hloads, mem_eraseDups, Call.mem_loaded_iff]
  obtain ⟨hfunctions, hglobals, haccepted⟩ := Package.after_eq { name } calls
  refine ⟨h.functions.nodup, h.globals.nodup, fun key place => h.indexed.lookup_iff h.functions.nodup,
    ?_, fun key => ?_, h.globals.find?, hfunctions, hglobals, fun f => ?_, fun v => ?_, haccepted,
    hloads, by simpa using h.loads.nodup, hincludes, by simpa using h.includes.nodup,
    fun other hother => ?_, fun other => ?_⟩
  · rw [h.indexed, length_zipIdx, length_map, Package.functions]
  · exact (h.indexed.find?_eq h.functions.nodup).trans (h.functions.find? key)
  · simp only [Package.registerFunction?, ite_eq_left_iff, reduceCtorEq, imp_false, not_not]
    exact h.indexed.contains_iff.trans h.functions.mem_iff
  · simp only [Package.registerGlobal?, ite_eq_left_iff, reduceCtorEq, imp_false, not_not]
    exact find?_key_isSome_iff.trans h.globals.mem_iff
  · rw [hincludes, mem_eraseDups, mem_filterMap] at hother
    obtain ⟨_ | _ | ⟨_, _ | _⟩, hcall, ⟨⟩⟩ := hother
    exact (hloaded other).mpr ⟨true, hcall⟩
  · rw [Package.canReference, h.name, Bool.or_eq_true, decide_eq_true_eq, contains_iff_mem,
      hloaded]

end Parcel
