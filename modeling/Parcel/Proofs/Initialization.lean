import Parcel.Proofs.Machine.Follows
import Parcel.Proofs.Machine.LoadOrder

/-!
# The initialization of the variables of packages

The groups of declarations are run package by package, in the order of `Parcel.initOrder`. Every
group is run once, and the entry function is called when all of them have been run.

## Main results

* `runGlobals_eq` — the initialization runs the schedule.
* `initialization_in_load_order` — the order of the packages, and what a run does before it
  calls the entry function.
-/

namespace Parcel

open Code List

/-- The groups of declarations in the order in which they are run. -/
def initSchedule (m : Machine) (entry : String) : List GlobalGroup :=
  (initOrder m.catalog entry m.program.globals).flatMap fun package =>
    m.program.globals.filter (·.package = package)

/-- The state with a new frame for the statements of a group, which has no variables yet. -/
def State.enter (s : State) (group : GlobalGroup) : State :=
  s.onStack (·.push
    (Frame.enter ("<globals> " ++ group.package) group.file group.stmts.toArray [] .void))

/-- Groups run one after the other, each from where the one before it ended: its statements are run
in a frame of their own, which is taken away at the end. -/
inductive RunInTurn (m : Machine) (fuel : Nat) : List GlobalGroup → State → State → Prop
  | nil (s : State) : RunInTurn m fuel [] s s
  | cons {group groups s s₁ s₂}
    (hstmts : runCode m fuel group.stmts.toArray (s.enter group) = .ok () s₁)
    (hgroups : RunInTurn m fuel groups (s₁.onStack Stack.pop) s₂) :
    RunInTurn m fuel (group :: groups) s s₂

/-! ### Groups by package -/

section Grouping

variable {order : List String} (hnodup : order.Nodup) (groups : List GlobalGroup)
include hnodup

lemma perm_flatMap_filter (hgroups : ∀ group ∈ groups, group.package ∈ order) :
    (order.flatMap fun package => groups.filter (·.package = package)).Perm groups := by
  induction order generalizing groups with
  | nil =>
    rw [eq_nil_iff_forall_not_mem.mpr fun group hgroup => nomatch hgroups group hgroup]
    exact .nil
  | cons package order ih =>
    obtain ⟨hfresh, hnodup⟩ := nodup_cons.mp hnodup
    have hothers : order.flatMap (fun p => groups.filter (·.package = p)) =
        order.flatMap fun p =>
          (groups.filter fun group => !decide (group.package = package)).filter (·.package = p) := by
      refine flatMap_congr fun p hp => ?_
      rw [filter_filter]
      refine filter_congr fun group _ => ?_
      by_cases heq : group.package = p
      · have : p ≠ package := fun h => hfresh (h ▸ hp)
        simp [heq, this]
      · simp [heq]
    rw [flatMap_cons, hothers]
    refine ((ih hnodup _ fun group hgroup => ?_).append_left _).trans (filter_append_perm _ _)
    obtain ⟨hgroup, hne⟩ := mem_filter.mp hgroup
    exact (mem_cons.mp (hgroups group hgroup)).resolve_left (by simpa using hne)

lemma filter_flatMap_filter (hgroups : ∀ group ∈ groups, group.package ∈ order) (p : String) :
    (order.flatMap fun package => groups.filter (·.package = package)).filter (·.package = p) =
      groups.filter (·.package = p) := by
  have hsame (package : String) : (groups.filter (·.package = package)).filter (·.package = p) =
      if package = p then groups.filter (·.package = p) else [] := by
    rw [filter_filter]
    split
    next h => exact filter_congr fun group _ => by simp [h]
    next h =>
      refine filter_eq_nil_iff.mpr fun group _ => ?_
      simp only [Bool.and_eq_true, decide_eq_true_eq, not_and]
      exact fun heq hpackage => h (hpackage.symm.trans heq)
  rw [filter_flatMap]
  simp only [hsame]
  by_cases hp : p ∈ order
  · obtain ⟨before, after, rfl⟩ := append_of_mem hp
    have hother {package : String} (hmem : package ∈ before ++ after) : ¬ package = p := by
      rintro rfl
      exact (nodup_middle.mp hnodup).notMem hmem
    rw [flatMap_append, flatMap_cons, if_pos rfl,
      flatMap_eq_nil_iff.mpr fun q hq => if_neg (hother (mem_append_left _ hq)),
      flatMap_eq_nil_iff.mpr fun q hq => if_neg (hother (mem_append_right _ hq)),
      nil_append, append_nil]
  · rw [filter_eq_nil_iff.mpr fun group hgroup => ?_]
    · exact flatMap_eq_nil_iff.mpr fun q hq => by simp
    · simp only [decide_eq_true_eq]
      exact fun heq => hp (heq ▸ hgroups group hgroup)

end Grouping

/-! ### The run of the schedule -/

lemma forM_flatMap {α β : Type} (l : List α) (f : α → List β) (action : β → Exec Unit) :
    (l.flatMap f).forM action = l.forM fun a => (f a).forM action := by
  induction l with
  | nil => rfl
  | cons a l ih =>
    rw [flatMap_cons, forM_eq_forM, forM_append, ← forM_eq_forM, ih]
    rfl

/-- **The initialization** gives all variables their default values and runs the schedule. -/
theorem runGlobals_eq (m : Machine) (fuel : Nat) (entry : String) :
    runGlobals m fuel entry = ((m.program.globals.flatMap declaredVars).forM (setDefault m) >>= fun _ =>
      (initSchedule m entry).forM (runGroup m fuel)) := by
  rw [show (initSchedule m entry).forM (runGroup m fuel) = _ from forM_flatMap _ _ _]
  rfl

lemma forM_setDefault_ok (m : Machine) (vars : List Var) (s : State) :
    ∃ s', vars.forM (setDefault m) s = .ok () s' := by
  induction vars generalizing s with
  | nil => exact ⟨s, rfl⟩
  | cons v vars ih => exact ih _

lemma forM_runGroup_cases (m : Machine) (fuel : Nat) (groups : List GlobalGroup) (s : State) :
    (∃ s', RunInTurn m fuel groups s s' ∧ groups.forM (runGroup m fuel) s = .ok () s') ∨
      ∃ before group after s₁ halt s₂, groups = before ++ group :: after ∧
        RunInTurn m fuel before s s₁ ∧
        runCode m fuel group.stmts.toArray (s₁.enter group) = .error halt s₂ ∧
        groups.forM (runGroup m fuel) s = .error halt (s₂.onStack Stack.pop) := by
  induction groups generalizing s with
  | nil => exact .inl ⟨s, .nil s, rfl⟩
  | cons group groups ih =>
    cases hstmts : runCode m fuel group.stmts.toArray (s.enter group) with
    | error halt s₂ =>
      have hgroup : runGroup m fuel group s = .error halt (s₂.onStack Stack.pop) :=
        exec_bind_error (withFrame_error hstmts) _
      exact .inr ⟨[], group, groups, s, halt, s₂, rfl, .nil s, hstmts, exec_bind_error hgroup _⟩
    | ok _ s₁ =>
      have hgroup : runGroup m fuel group s = .ok () (s₁.onStack Stack.pop) :=
        exec_bind_ok (withFrame_ok hstmts) _
      rcases ih (s₁.onStack Stack.pop) with
        ⟨s', hturn, hrun⟩ | ⟨before, failing, after, s', halt, s₂, rfl, hturn, hrun⟩
      · exact .inl ⟨s', .cons hstmts hturn, (exec_bind_ok hgroup _).trans hrun⟩
      · exact .inr ⟨group :: before, failing, after, s', halt, s₂, rfl, .cons hstmts hturn, hrun.1,
          (exec_bind_ok hgroup _).trans hrun.2⟩

/-- **A run** gives all variables their default values, runs the schedule, and calls the entry
function; it ends where a group fails. -/
theorem runEntry_cases (m : Machine) (fuel : Nat) (entry : FunctionSymbol) (s : State) :
    ∃ s₀, (m.program.globals.flatMap declaredVars).forM (setDefault m) s = .ok () s₀ ∧
      ((∃ s', RunInTurn m fuel (initSchedule m entry.package) s₀ s' ∧ runEntry m fuel entry s =
          (defaultArguments m entry >>= fun arguments => call m fuel entry arguments none) s') ∨
        ∃ before group after s₁ halt s₂,
          initSchedule m entry.package = before ++ group :: after ∧ RunInTurn m fuel before s₀ s₁ ∧
          runCode m fuel group.stmts.toArray (s₁.enter group) = .error halt s₂ ∧
          runEntry m fuel entry s = .error halt (s₂.onStack Stack.pop)) := by
  obtain ⟨s₀, hdefaults⟩ := forM_setDefault_ok m (m.program.globals.flatMap declaredVars) s
  have hglobals : runGlobals m fuel entry.package s =
      (initSchedule m entry.package).forM (runGroup m fuel) s₀ := by
    rw [runGlobals_eq]
    exact exec_bind_ok hdefaults _
  refine ⟨s₀, hdefaults, ?_⟩
  rcases forM_runGroup_cases m fuel (initSchedule m entry.package) s₀ with
    ⟨s', hturn, hrun⟩ | ⟨before, group, after, s₁, halt, s₂, hsplit, hturn, hgroup, hrun⟩
  · exact .inl ⟨s', hturn, exec_bind_ok (hglobals.trans hrun) _⟩
  · exact .inr ⟨before, group, after, s₁, halt, s₂, hsplit, hturn, hgroup,
      exec_bind_error (hglobals.trans hrun) _⟩

lemma pairwise_initSchedule (m : Machine) (entry : String) :
    (initSchedule m entry).Pairwise fun group later => group.package = later.package ∨
      [group.package, later.package].Sublist (initOrder m.catalog entry m.program.globals) := by
  have hpackage {package : String} {group : GlobalGroup}
      (h : group ∈ m.program.globals.filter (·.package = package)) : group.package = package :=
    of_decide_eq_true (mem_filter.mp h).2
  refine pairwise_flatMap.mpr ⟨fun package _ => ?_, ?_⟩
  · refine List.Pairwise.imp_of_mem (fun ha hb _ => ?_) (pairwise_of_forall fun _ _ => trivial)
    exact .inl ((hpackage ha).trans (hpackage hb).symm)
  · refine pairwise_iff_forall_sublist.mpr fun {p q} hsub group hgroup later hlater => .inr ?_
    rwa [hpackage hgroup, hpackage hlater]

/-- **The initialization follows the loads.** Every package is listed at most once: those that the
entry package or a package with variables leads to. A package comes after those that it loads,
unless they lead back to it, and what the entry package leads to comes before everything else. The
groups of all packages are run in this order, each one once, in a frame of its own, and those of a
package in the order of binding; the entry function is called when all of them have ended, unless
one fails and ends the run. -/
theorem initialization_in_load_order (m : Machine) (entry : FunctionSymbol) :
    let loads := m.catalog.loadsOf
    let groups := m.program.globals
    let order := initOrder m.catalog entry.package groups
    let schedule := initSchedule m entry.package
    order.Nodup ∧
      (∀ p, p ∈ order ↔
        Reaches loads entry.package p ∨ ∃ group ∈ groups, Reaches loads group.package p) ∧
      (∀ p q, p ∈ order → q ∈ loads p → ¬ Reaches loads q p → [q, p].Sublist order) ∧
      (∀ p q, Reaches loads entry.package p → q ∈ order → ¬ Reaches loads entry.package q →
        [p, q].Sublist order) ∧
      schedule.Perm groups ∧
      (∀ p, schedule.filter (·.package = p) = groups.filter (·.package = p)) ∧
      (schedule.Pairwise fun group later => group.package = later.package ∨
        [group.package, later.package].Sublist order) ∧
      ∀ fuel s, ∃ s₀, (groups.flatMap declaredVars).forM (setDefault m) s = .ok () s₀ ∧
        ((∃ s', RunInTurn m fuel schedule s₀ s' ∧ runEntry m fuel entry s =
            (defaultArguments m entry >>= fun arguments => call m fuel entry arguments none) s') ∨
          ∃ before group after s₁ halt s₂, schedule = before ++ group :: after ∧
            RunInTurn m fuel before s₀ s₁ ∧
            runCode m fuel group.stmts.toArray (s₁.enter group) = .error halt s₂ ∧
            runEntry m fuel entry s = .error halt (s₂.onStack Stack.pop)) := by
  intro loads groups order schedule
  have hnodup : order.Nodup := nodup_initOrder m.catalog entry.package groups
  have hgroups : ∀ group ∈ groups, group.package ∈ order := fun group hgroup =>
    (mem_initOrder _ _ _).mpr (.inr ⟨group, hgroup, .refl⟩)
  exact ⟨hnodup, fun p => mem_initOrder _ _ _, fun p q => sublist_initOrder_of_loads _ _ _,
    fun p q => sublist_initOrder_of_reaches _ _ _, perm_flatMap_filter hnodup groups hgroups,
    filter_flatMap_filter hnodup groups hgroups, pairwise_initSchedule m entry.package,
    fun fuel s => runEntry_cases m fuel entry s⟩

/-- Packages that load each other: a diamond with a way back to its top, a package that loads
itself, and one that nothing loads. -/
def loadCycle : Catalog :=
  let package (name : String) (loads : List String) : Package := { name, loads }
  { Catalog.empty with
    packages := [package "app" ["left", "right"], package "left" ["base"],
      package "right" ["base", "app"], package "base" ["base"], package "aside" ["right"]] }

theorem initialization_loadCycle :
    let groups := ["aside", "right", "base", "right"].map (GlobalGroup.mk · none [])
    let m : Machine := ⟨⟨[], groups⟩, loadCycle, {}⟩
    let order := initOrder loadCycle "app" groups
    order = ["base", "left", "right", "app", "aside"] ∧ ["base", "right"].Sublist order ∧
      ["right", "aside"].Sublist order ∧ (initSchedule m "app").Perm groups := by
  intro groups m order
  have horder : order = ["base", "left", "right", "app", "aside"] := by decide +kernel
  have hlisted {p : String} (hp : p ∈ ["base", "left", "right", "app", "aside"]) : p ∈ order :=
    horder ▸ hp
  have hbase : ¬ Reaches loadCycle.loadsOf "base" "right" := fun h =>
    absurd (h.mem_of_closed ["base"] (by decide +kernel) (by decide)) (by decide)
  have haside : ¬ Reaches loadCycle.loadsOf "app" "aside" := fun h =>
    absurd (h.mem_of_closed ["app", "left", "right", "base"] (by decide +kernel)
      (by decide)) (by decide)
  obtain ⟨-, -, hloads, hentry, hperm, -⟩ :=
    initialization_in_load_order m ⟨⟨0⟩, "main", "app", [], .void, none, .interpreted⟩
  refine ⟨horder, ?_, ?_, hperm⟩
  · exact hloads "right" "base" (hlisted (by decide)) (by decide +kernel) hbase
  · exact hentry "right" "aside" (.single (by decide +kernel)) (hlisted (by decide)) haside

end Parcel
