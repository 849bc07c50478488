import Mathlib.Data.List.Nodup
import Parcel.Proofs.Binding.Program
import Parcel.Proofs.Code.Rewrite
import Parcel.Proofs.Machine.Contract

/-!
# Lowered programs are well formed

Whatever files are bound, with or without errors, and in whatever order their functions are lowered:
lowering ends, what it gives can be run, and no two labels or variables of the program are the same.

## Main results

* `Ids.Taken.lower` — lowering a program takes its labels and variables from the counters.
* `lower_bindFiles_wellFormed` — lowered programs are well formed, and their runs find every
  label.
-/

namespace Parcel

open Code List

variable {p : Program} {ids ids' : Ids} {functions : List FunctionId} {labels : List Label}
  {vars : List VarId}

/-! ### Whole programs -/

/-- The second function is the first one with its body rewritten, which can be done in one way only,
and flattened. -/
def Code.LoweredTo (f g : Function) : Prop :=
  ∃ body ids low ids', f.body = .structured body ∧
    (∀ low' ids'', Rewrites ids body low' ids'' ↔ low' = low ∧ ids'' = ids') ∧
    g = ⟨f.symbol, f.file, .lowered (flatten low).toArray⟩

/-- Every body can be run, and no label is placed twice and no variable introduced twice in the
whole program. -/
structure Code.Program.WellFormed (p : Program) : Prop where
  runnable : ∀ f ∈ p.functions, f.body.Runnable
  labels : p.placed.Nodup
  vars : (p.vars.map (·.id)).Nodup

lemma forall₂_loweredTo (h : ∀ f ∈ p.functions, ∃ body, f.body = .structured body) (ids : Ids) :
    List.Forall₂ LoweredTo p.functions (p.lower.run ids).1.functions := by
  refine lowerFunctions_induct (Q := fun _ fs lows _ =>
    (∀ f ∈ fs, ∃ body, f.body = .structured body) → List.Forall₂ LoweredTo fs lows)
    (fun _ => .nil) (fun {ids _ _ _ _} ih h => ?_) p.functions ids h
  rw [forall_mem_cons] at h
  obtain ⟨⟨body, hbody⟩, hrest⟩ := h
  refine .cons ⟨body, ids, (body.lower.run ids).1, (body.lower.run ids).2, hbody, ?_, ?_⟩ (ih hrest)
  · intro low ids'
    rw [rewrites_iff, Prod.ext_iff]
    exact and_congr eq_comm eq_comm
  · rw [lower_structured hbody]

/-- Lowering a program takes labels and variables from the counters, on top of those that the
program has taken. -/
lemma Ids.Taken.lower {ids₀ : Ids} (h : ids₀.Taken ids p.placed (p.vars.map (·.id)) functions) :
    ids₀.Taken (p.lower.run ids).2 (p.lower.run ids).1.placed
      ((p.lower.run ids).1.vars.map (·.id)) functions := by
  have hreach := reach_lower_program p ids
  have hlater := h.later hreach
  refine ⟨hlater.reach, fun label => ?_, fun id => ?_, hlater.functions⟩
  · rw [count_placed_lower, ← within_add h.reach.labels hreach.labels]
    exact Nat.add_le_add_right (h.labels label) _
  · rw [count_vars_lower, ← within_add h.reach.vars hreach.vars]
    exact Nat.add_le_add_right (h.vars id) _

lemma Ids.Taken.nodup_labels (h : ids.Taken ids' labels vars functions) : labels.Nodup :=
  nodup_iff_count_le_one.mpr fun label =>
    Nat.le_trans (h.labels label) (within_le_one _ _ _)

lemma Ids.Taken.nodup_vars (h : ids.Taken ids' labels vars functions) : vars.Nodup :=
  nodup_iff_count_le_one.mpr fun id =>
    Nat.le_trans (h.vars id) (within_le_one _ _ _)

/-- A variable that is taken was not in use before. -/
lemma Ids.Taken.le_index (h : ids.Taken ids' labels vars functions) {id : VarId} (hid : id ∈ vars) :
    ids.nextVar ≤ id.index :=
  (mem_range_of_count_le hid (h.vars id)).1

lemma Ids.Taken.function_index (h : ids.Taken ids' labels vars functions) {id : FunctionId}
    (hid : id ∈ functions) : ids.nextFunction ≤ id.index ∧ id.index < ids'.nextFunction :=
  mem_range_of_count_le hid (h.functions id)

/-! ### Runs find their labels -/

/-- Whether a cause is a fault of lowering: a label that is not there, or code that is not
lowered. -/
def FaultCause.ofLowering : FaultCause → Bool
  | .unresolvedLabel _ | .unlowered _ => true
  | _ => false

lemma FaultCause.ofLowering_of_ofOperation {cause : FaultCause} (h : cause.ofOperation = true) :
    cause.ofLowering = false := by
  cases cause with
  | unresolvedLabel | unlowered => cases h
  | _ => rfl

/-- The contract that everything keeps to but faults of lowering. -/
def Contract.jumps : Contract where
  allowed cause := cause.ofLowering = false
  globals := []
  callable _ _ := True

lemma Contract.checks_jumps (code : List Stmt) (present : List VarId) :
    jumps.Checks (fun _ => []) present code := by
  induction code generalizing present with
  | nil => trivial
  | cons stmt code ih =>
    refine ⟨fun a _ => ?_, ?_⟩
    · cases a with
      | read => exact .inr rfl
      | _ => trivial
    · cases stmt with
      | label | goto | gotoIf => exact ⟨nil_subset _, ih _⟩
      | _ => exact ih _

/-- Code of a program whose bodies can all be run. -/
lemma codeOf_cases (hp : ∀ f ∈ p.functions, f.body.Runnable) (f : FunctionSymbol) :
    codeOf p f = .error (.unresolvedFunction f.qualifiedName) ∨
      ∃ g file code, p.function? f.id = some g ∧ g.file = file ∧ g.body = .lowered code ∧
        codeOf p f = .ok (file, code) := by
  unfold codeOf
  cases hfound : p.function? f.id with
  | none => exact .inl rfl
  | some g =>
    obtain ⟨code, hcode⟩ := (hp g (mem_of_find?_eq_some hfound)).isLowered
    obtain ⟨symbol, file, body⟩ := g
    cases hcode
    exact .inr ⟨_, file, code, rfl, rfl, rfl, rfl⟩

/-- Groups of declarations can be run as they are. -/
lemma runnable_declarations {stmts : List Stmt}
    (h : ∀ stmt ∈ stmts, ∃ v initializer, stmt = .declare v initializer) :
    (Body.lowered stmts.toArray).Runnable where
  isLowered := ⟨_, rfl⟩
  stmts stmt hstmt := by
    obtain ⟨v, initializer, rfl⟩ := h stmt hstmt
    rfl
  targets label hlabel := by
    obtain ⟨stmt, hstmt, hown⟩ := mem_flatMap.mp hlabel
    obtain ⟨v, initializer, rfl⟩ := h stmt hstmt
    cases hown

lemma honoured_jumps {m : Machine} (hfunctions : ∀ f ∈ m.program.functions, f.body.Runnable)
    (hgroups : ∀ group ∈ m.program.globals, ∀ stmt ∈ group.stmts, ∃ v initializer,
      stmt = .declare v initializer) : Contract.jumps.Honoured m where
  ofOperation _ h := FaultCause.ofLowering_of_ofOperation h
  stackOverflow := rfl
  missing f _ cause _ _ hcause := by
    rcases codeOf_cases hfunctions f with h | ⟨_, _, _, _, _, _, h⟩
    · rw [h] at hcause
      cases hcause
      rfl
    · rw [h] at hcause
      cases hcause
  bodies f _ file code _ _ hcode := by
    rcases codeOf_cases hfunctions f with h | ⟨g, _, _, hg, _, hbody, h⟩
    · rw [h] at hcode
      cases hcode
    · rw [h] at hcode
      cases hcode
      refine ⟨?_, _, Contract.checks_jumps _ _⟩
      rw [← hbody]
      exact hfunctions g (mem_of_find?_eq_some hg)
  groups group hgroup := ⟨runnable_declarations (hgroups group hgroup), _,
    Contract.checks_jumps _ _⟩
  globals _ hid := nomatch hid

/-- The functions of a program in another order place the same labels and introduce the same
variables. -/
lemma taken_order {catalog : Catalog} {b : Build} (h : b.Shaped catalog ids [])
    {order : List Function} (horder : order.Perm b.program.functions) :
    ids.Taken b.ids (Program.placed ⟨order, b.program.globals⟩)
      ((Program.vars ⟨order, b.program.globals⟩).map (·.id)) (order.map (·.symbol.id)) := by
  refine h.taken.perm ?_ ?_ ?_
  · exact (horder.flatMap_right _).symm
  · rw [flatMap_nil, append_nil]
    exact (((horder.flatMap_right _).append_left _).map _).symm
  · rw [map_nil, append_nil, map_map]
    exact (horder.map _).symm

/-- **Lowered programs are well formed.** For all files that are bound on top of any catalog, and
for every order of the functions: lowering ends with a rewriting of each function, every body can be
run, labels and variables are distinct in the whole program and from what was in use before, and no
run ends because a label is missing or code is not lowered. -/
theorem lower_bindFiles_wellFormed (catalog : Catalog) (ids : Ids) (files : List Syntax.Program)
    (order : List Function) (horder : order.Perm (bindFiles catalog ids files).program.functions) :
    let build := bindFiles catalog ids files
    let lowered := (Program.lower ⟨order, build.program.globals⟩).run build.ids |>.1
    List.Forall₂ LoweredTo order lowered.functions ∧ lowered.WellFormed ∧
      (∀ v ∈ lowered.vars, ids.nextVar ≤ v.id.index) ∧
      ∀ (known : Catalog) (mode : Mode) (entry : FunctionSymbol) (fuel : Nat) (sink : Sink)
        (fault : Fault), (runFor ⟨lowered, known, mode⟩ fuel entry sink).1 = .failed fault →
          fault.cause.ofLowering = false := by
  intro build lowered
  have shaped : build.Shaped catalog ids [] := shaped_bindFiles catalog ids files
  have bodies : ∀ f ∈ order, ∃ body, f.body = .structured body ∧ Structured none body := by
    intro f hf
    obtain ⟨body, hbody, hstructured, -⟩ := shaped.bodies f (horder.mem_iff.mp hf)
    exact ⟨body, hbody, hstructured⟩
  have runnable : ∀ f ∈ lowered.functions, f.body.Runnable :=
    runnable_lower_program (p := ⟨order, build.program.globals⟩) bodies build.ids
  have taken := (taken_order shaped horder).lower
  refine ⟨?_, ⟨runnable, taken.nodup_labels, taken.nodup_vars⟩, ?_, ?_⟩
  · exact forall₂_loweredTo (p := ⟨order, build.program.globals⟩)
      (fun f hf => (bodies f hf).imp fun _ h => h.1) build.ids
  · exact fun v hv => taken.le_index (mem_map_of_mem hv)
  · intro known mode entry fuel sink fault hfault
    refine (honoured_jumps (m := ⟨lowered, known, mode⟩) runnable ?_).allowed_of_runFor trivial
      hfault
    intro group hgroup stmt hstmt
    obtain ⟨v, initializer, hstmt, -⟩ := shaped.declarations group hgroup stmt hstmt
    exact ⟨v, initializer, hstmt⟩

/-- A file of two functions with nested loops. -/
def nestedLoops : Syntax.Program :=
  let here : Span := ⟨0, 0⟩
  let three : Syntax.Expr := .literal (.number "3") here
  let endless : Syntax.Stmt := .whileLoop (.literal (.bool true) here) (.breakLoop here) here
  ⟨[.function ⟨⟨"counting", here⟩, [], none, .loop three endless here, here⟩,
    .function ⟨⟨"ranging", here⟩, [], none,
      .fromTo ⟨"i", here⟩ three three (.continueLoop here) here, here⟩]⟩

theorem lower_nestedLoops_wellFormed :
    let build := bindFiles .empty {} [nestedLoops]
    let order := build.program.functions.reverse
    let lowered := (Program.lower ⟨order, build.program.globals⟩).run build.ids |>.1
    order.length = 2 ∧ order.Perm build.program.functions ∧
      List.Forall₂ LoweredTo order lowered.functions ∧ lowered.WellFormed := by
  have hlength : (bindFiles .empty {} [nestedLoops]).program.functions.reverse.length = 2 := by
    decide +kernel
  generalize hfiles : [nestedLoops] = files at hlength ⊢
  have horder := reverse_perm (bindFiles .empty {} files).program.functions
  have hall := lower_bindFiles_wellFormed .empty {} files _ horder
  exact ⟨hlength, horder, hall.1, hall.2.1⟩

end Parcel
