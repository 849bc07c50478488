import Parcel.Proofs.Direct.Calls
import Parcel.Proofs.WellFormed

/-!
# Lowering preserves meaning

Whatever files are bound: a call of a function whose code was lowered ends if and only if the direct
execution of its structured body ends, and then both end in the same way, with the same value or the
same fault, and in the same state.

## Main results

* `lowering_bindFiles` — the functions of a program that was bound have structured bodies, and
  flat code in the lowered program.
* `call_lower_iff_callTree` — lowering preserves meaning.
-/

namespace Parcel

open Code List

/-- A variable that is taken is in use from then on. -/
lemma Ids.Taken.index_lt {ids ids' : Ids} {labels : List Label} {vars : List VarId}
    {functions : List FunctionId} (h : ids.Taken ids' labels vars functions) {id : VarId}
    (hid : id ∈ vars) : id.index < ids'.nextVar :=
  (mem_range_of_count_le hid (h.vars id)).2

section Shaped

variable {catalog : Catalog} {ids : Ids} {b : Build} (h : b.Shaped catalog ids [])
  (hglobals : ∀ v, catalog.HasGlobal v → v.isGlobal = true)
include h

lemma Build.Shaped.index_lt {v : Var} (hv : v ∈ b.program.vars) :
    v.id.index < b.ids.nextVar := by
  have htaken := h.taken
  rw [flatMap_nil, append_nil] at htaken
  exact htaken.index_lt (mem_map_of_mem hv)

include hglobals in
/-- Binding adds only variables of packages to the packages. -/
lemma Build.Shaped.isGlobal {v : Var} (hv : b.catalog.HasGlobal v) : v.isGlobal = true := by
  rcases h.globals v hv with hbefore | hv
  · exact hglobals v hbefore
  · exact h.isGlobal_globalVars hv

include hglobals in
lemma Build.Shaped.flatOf {f : Function} (hf : f ∈ b.program.functions) {body : Stmt}
    (hbody : f.body = .structured body) {ids' : Ids} (hreach : b.ids.Reach ids')
    (hlabels : (Body.lowered (flatten (body.lower.run ids').1).toArray).placed.Nodup) :
    FlatOf b.ids.nextVar body (flatten (body.lower.run ids').1).toArray := by
  obtain ⟨body', hbody', hstructured, hscoped⟩ := h.bodies f hf
  obtain rfl : body = body' := by
    rw [hbody] at hbody'
    cases hbody'
    rfl
  have hfunction {v : Var} (hv : v ∈ f.vars) : v.id.index < b.ids.nextVar :=
    h.index_lt (mem_append_right _ (mem_flatMap.mpr ⟨f, hf, hv⟩))
  have hvars : ∀ v ∈ body.vars, v.id.index < b.ids.nextVar := by
    intro v hv
    refine hfunction (mem_append_right _ ?_)
    rw [hbody]
    exact hv
  refine ⟨hstructured, hvars, fun a ha v hv => ?_, ⟨ids', hreach.vars, rfl⟩, hlabels⟩
  rcases var_mem_of_scoped hscoped a ha v hv with hvisible | hv
  · rcases mem_append.mp hvisible with hparam | hglobal
    · exact .inr (hfunction (mem_append_left _ hparam))
    · rcases h.globals v (Catalog.hasGlobal_of_globalsOf hglobal) with hbefore | hv
      · exact .inl (hglobals v hbefore)
      · exact .inr (h.index_lt (mem_append_left _ hv))
  · exact .inr (hvars v hv)

include hglobals in
/-- The functions of a program that was bound have structured bodies, and flat code in the lowered
program. -/
lemma lowering_bindFiles : Lowering b.ids.nextVar b.program (b.program.lower.run b.ids).1 := by
  intro f
  have hnodup := (nodup_flatMap.mp (taken_order h (.refl _)).lower.nodup_labels).1
  rcases function?_lower b.program b.ids f.id with ⟨hnone, hnone'⟩ | ⟨g, ids', hg, hreach, hlow⟩
  · refine .inl ⟨.unresolvedFunction f.qualifiedName, ?_, ?_⟩
    · rw [treeOf, hnone]
    · rw [codeOf, hnone']
  · have hmem := mem_of_find?_eq_some hg
    obtain ⟨body, hbody, -, -⟩ := h.bodies g hmem
    have hlabels := hnodup _ (mem_of_find?_eq_some hlow)
    rw [lower_structured hbody] at hlow hlabels
    refine .inr ⟨g.file, body, (flatten (body.lower.run ids').1).toArray, ?_, ?_,
      h.flatOf hglobals hmem hbody hreach hlabels⟩
    · obtain ⟨symbol, file, body'⟩ := g
      cases hbody
      rw [treeOf, hg]
    · rw [codeOf, hlow]

end Shaped

/-- States that are alike on the same frames are equal. -/
lemma Level.eq {frames : List Frame} {s t : State} (h : Level frames frames s t) : s = t := by
  obtain ⟨globals, heap, ⟨frames₁, depth₁, hdepth₁⟩, recovered, sink⟩ := s
  obtain ⟨globals', heap', ⟨frames₂, depth₂, hdepth₂⟩, recovered', sink'⟩ := t
  obtain ⟨⟨rfl, rfl, rfl, rfl⟩, hleft, hright⟩ := h
  obtain rfl : frames₁ = frames := hleft
  obtain rfl : frames₂ = frames₁ := hright
  obtain rfl : depth₁ = depth₂ := hdepth₁.trans hdepth₂.symm
  rfl

lemma Agrees.eq {α : Type} {R : State → State → Prop} {allowed : FaultCause → Prop}
    {r r' : Exec.Result α} (h : Agrees R allowed r r')
    (hR : ∀ s t, R s t → s = t) : r = r' := by
  cases h with
  | ok a h | fault hcause h => rw [hR _ _ h]

/-- **Lowering preserves meaning.** For all files that are bound on top of a catalog in which
packages have only variables of packages, as it is the case again afterwards: from every state, a
call of any function with any arguments has an end as flat code if and only if direct execution has
this end. The end of a call is its value or its fault with the whole state: the variables of
packages, the heap, what was written and the faults from which it recovered. -/
theorem call_lower_iff_callTree (catalog : Catalog) (ids : Ids) (files : List Syntax.Program)
    (hglobals : ∀ v, catalog.HasGlobal v → v.isGlobal = true) :
    let build := bindFiles catalog ids files
    let lowered := (build.program.lower.run build.ids).1
    (∀ v, build.catalog.HasGlobal v → v.isGlobal = true) ∧
    ∀ (known : Catalog) (mode : Mode) (f : FunctionSymbol) (arguments : List Value)
      (receiver : Option Value) (s : State) (r : Exec.Result Value), ¬ Unsettled r →
      ((∃ fuel, call ⟨lowered, known, mode⟩ fuel f arguments receiver s = r) ↔
        ∃ fuel, callTree ⟨build.program, known, mode⟩ fuel f arguments receiver s = r) := by
  intro build lowered
  have shaped : build.Shaped catalog ids [] := shaped_bindFiles catalog ids files
  refine ⟨fun v hv => shaped.isGlobal hglobals hv, ?_⟩
  intro known mode f arguments receiver s r hr
  have hlowering : Lowering build.ids.nextVar (Machine.mk build.program known mode).program lowered :=
    lowering_bindFiles shaped hglobals
  have hlevel : Level s.stack.frames s.stack.frames s s := ⟨⟨rfl, rfl, rfl, rfl⟩, rfl, rfl⟩
  constructor
  · rintro ⟨fuel, hcall⟩
    have hback := (hlowering.corresponds fuel _ _ ⟨rfl, rfl⟩ f arguments receiver).2 fuel
      (Nat.le_refl _) s s hlevel
    rcases hback with hunsettled | ⟨r', hagree, enough, hr'⟩
    · exact absurd (hcall ▸ hunsettled) hr
    · refine ⟨fuel, (hr' enough (Nat.le_refl _)).trans ?_⟩
      rw [← hagree.eq fun _ _ h => (Level.eq h).symm]
      exact hcall
  · rintro ⟨fuel, hcall⟩
    have hforth := (hlowering.corresponds fuel _ _ ⟨rfl, rfl⟩ f arguments receiver).1 s s hlevel
    rcases hforth with hunsettled | ⟨r', hagree, enough, hr'⟩
    · exact absurd (hcall ▸ hunsettled) hr
    · refine ⟨enough, (hr' enough (Nat.le_refl _)).trans ?_⟩
      rw [← hagree.eq fun _ _ h => Level.eq h]
      exact hcall

/-- A file with a function whose inner loop is left by `break`, inside a block of an outer loop that
is continued. -/
def searching : Syntax.Program :=
  let here : Span := ⟨0, 0⟩
  let bool (value : Bool) : Syntax.Expr := .literal (.bool value) here
  let name (text : String) : Syntax.Expr := .name text here
  let declare (text : String) (value : Bool) : Syntax.Stmt :=
    .declaration ⟨⟨text, here⟩, none, some (bool value), here⟩
  let set (text : String) (value : Bool) : Syntax.Stmt :=
    .expr (.assign (name text) (bool value) here)
  let round : Syntax.Stmt := .block
    [.ifElse (name "found") (.continueLoop here) none here, set "found" true,
      .whileLoop (bool true) (.block [declare "inner" true, .breakLoop here] here) here] here
  ⟨[.function ⟨⟨"search", here⟩, [], some (.mk "bool" [] here), .block
    [declare "found" false,
      .forLoop (declare "going" true) (name "going") (set "going" false) round here,
      .ret (some (name "found")) here] here, here⟩]⟩

/-- Whether a call has ended with the value `true`. -/
def returnsTrue : Exec.Result Value → Bool
  | .ok (.bool value) _ => value
  | _ => false

theorem callTree_searching :
    let build := bindFiles .empty {} [searching]
    (∀ v, Catalog.empty.HasGlobal v → v.isGlobal = true) ∧ build.errors = #[] ∧
      ∃ f ∈ build.program.functions, ∃ fuel, returnsTrue
        (callTree ⟨build.program, build.catalog, {}⟩ fuel f.symbol [] none (State.initial {})) := by
  have hempty : ∀ v, Catalog.empty.HasGlobal v → v.isGlobal = true := by
    rintro v ⟨package, hpackage, -⟩
    cases hpackage
  have haccepted : (bindFiles .empty {} [searching]).errors.size = 0 := by decide +kernel
  have hrun : let build := bindFiles .empty {} [searching]
      ∃ f ∈ build.program.functions, returnsTrue
        (call ⟨(build.program.lower.run build.ids).1, build.catalog, {}⟩ 40 f.symbol [] none
          (State.initial {})) := by decide +kernel
  generalize [searching] = files at haccepted hrun ⊢
  obtain ⟨f, hf, hrun⟩ := hrun
  refine ⟨hempty, Array.eq_empty_of_size_eq_zero haccepted, f, hf, ?_⟩
  have hsettled {r : Exec.Result Value} (h : returnsTrue r = true) : ¬ Unsettled r := by
    rintro ⟨s, rfl⟩
    cases h
  obtain ⟨fuel, htree⟩ := ((call_lower_iff_callTree .empty {} files hempty).2 _ {} f.symbol [] none
    (State.initial {}) _ (hsettled hrun)).mp ⟨40, rfl⟩
  exact ⟨fuel, htree ▸ hrun⟩

end Parcel
