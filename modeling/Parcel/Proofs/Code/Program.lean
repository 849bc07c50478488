import Parcel.Proofs.Code.Fresh

/-!
# Lowered programs

The labels and variables of whole programs, and what lowering makes of them. The functions may be
lowered in any order.
-/

namespace Parcel.Code

open List

variable {f : Function} {body : Stmt} (p : Program) (ids : Ids)

/-- All statements of a body. -/
def Body.stmts : Body → List Stmt
  | .structured body => body.parts
  | .lowered code => code.toList

def Body.placed (body : Body) : List Label :=
  body.stmts.flatMap Stmt.ownLabels

def Body.introduced (body : Body) : List Var :=
  body.stmts.flatMap Stmt.ownVars

def Body.targets (body : Body) : List Label :=
  body.stmts.flatMap Stmt.ownTargets

/-- The variables of a function: its parameters and those of its body. -/
def Function.vars (f : Function) : List Var :=
  f.symbol.params ++ f.body.introduced

def Program.placed (p : Program) : List Label :=
  p.functions.flatMap (·.body.placed)

/-- The variables of the packages of a program. -/
def Program.globalVars (p : Program) : List Var :=
  p.globals.flatMap fun group => group.stmts.flatMap Stmt.vars

/-- All variables of a program. -/
def Program.vars (p : Program) : List Var :=
  p.globalVars ++ p.functions.flatMap Function.vars

lemma flatMap_stmts_lowered {α : Type} {mark : Stmt → List α}
    (hblock : ∀ stmts, mark (.block stmts) = []) (hdelete : ∀ var, mark (.delete var) = [])
    (stmt : Stmt) (ids : Ids) :
    (Body.lowered (flatten (stmt.lower.run ids).1).toArray).stmts.flatMap mark =
      (stmt.lower.run ids).1.parts.flatMap mark := by
  show (flatten (stmt.lower.run ids).1).flatMap mark = _
  rw [flatten_eq_flat, (isJumpCode_lower stmt ids).flatMap_flat hblock hdelete]

lemma placed_lowered (stmt : Stmt) (ids : Ids) :
    (Body.lowered (flatten (stmt.lower.run ids).1).toArray).placed =
      (stmt.lower.run ids).1.labels :=
  flatMap_stmts_lowered (fun _ => rfl) (fun _ => rfl) stmt ids

lemma introduced_lowered (stmt : Stmt) (ids : Ids) :
    (Body.lowered (flatten (stmt.lower.run ids).1).toArray).introduced = (stmt.lower.run ids).1.vars :=
  flatMap_stmts_lowered (fun _ => rfl) (fun _ => rfl) stmt ids

lemma targets_lowered (stmt : Stmt) (ids : Ids) :
    (Body.lowered (flatten (stmt.lower.run ids).1).toArray).targets =
      (stmt.lower.run ids).1.targets :=
  flatMap_stmts_lowered (fun _ => rfl) (fun _ => rfl) stmt ids

/-! ### Single functions -/

@[simp] lemma symbol_lower (f : Function) (ids : Ids) :
    (f.lower.run ids).1.symbol = f.symbol := rfl

lemma lower_structured (h : f.body = .structured body) (ids : Ids) :
    f.lower.run ids = (⟨f.symbol, f.file, .lowered (flatten (body.lower.run ids).1).toArray⟩,
      (body.lower.run ids).2) := by
  obtain ⟨symbol, file, body'⟩ := f
  cases h
  rfl

lemma lower_lowered {code : Array Stmt} (h : f.body = .lowered code) (ids : Ids) :
    f.lower.run ids = (f, ids) := by
  obtain ⟨symbol, file, body'⟩ := f
  cases h
  rfl

lemma reach_lower_function (f : Function) (ids : Ids) : ids.Reach (f.lower.run ids).2 := by
  cases h : f.body with
  | structured body =>
    rw [lower_structured h]
    exact (introduces_lower body ids).reach
  | lowered =>
    rw [lower_lowered h]
    exact .refl ids

lemma count_placed_lower_function (f : Function) (ids : Ids) (label : Label) :
    (f.lower.run ids).1.body.placed.count label = f.body.placed.count label +
      within ids.nextLabel (f.lower.run ids).2.nextLabel label.index := by
  cases h : f.body with
  | structured body =>
    rw [lower_structured h, placed_lowered]
    exact (introduces_lower body ids).labels label
  | lowered => rw [lower_lowered h, h, within_self, Nat.add_zero]

lemma count_vars_lower_function (f : Function) (ids : Ids) (id : VarId) :
    ((f.lower.run ids).1.vars.map (·.id)).count id = (f.vars.map (·.id)).count id +
      within ids.nextVar (f.lower.run ids).2.nextVar id.index := by
  cases h : f.body with
  | structured body =>
    have key := (introduces_lower body ids).varIds id
    rw [Stmt.varIds, Stmt.varIds] at key
    rw [lower_structured h, Function.vars, introduced_lowered, Function.vars, h, map_append,
      count_append, key, map_append, count_append, Nat.add_assoc]
    rfl
  | lowered => rw [lower_lowered h, within_self, Nat.add_zero]

/-- Every statement of a lowered body is one that the machine runs, and its jumps lead to labels of
the body. -/
structure Body.Runnable (body : Body) : Prop where
  isLowered : ∃ code, body = .lowered code
  stmts : ∀ stmt ∈ body.stmts, stmt.isLowered = true
  targets : ∀ label ∈ body.targets, label ∈ body.placed

lemma runnable_lower (h : f.body = .structured body) (hbody : Structured none body) (ids : Ids) :
    (f.lower.run ids).1.body.Runnable where
  isLowered := by
    rw [lower_structured h]
    exact ⟨_, rfl⟩
  stmts := by
    rw [lower_structured h]
    show ∀ stmt ∈ flatten (body.lower.run ids).1, _
    rw [flatten_eq_flat]
    exact (isJumpCode_lower body ids).isLowered_of_mem_flat
  targets := by
    rw [lower_structured h, targets_lowered, placed_lowered]
    intro label hlabel
    rcases targets_lower body ids none hbody label hlabel with hmem | ⟨labels, hnone, -⟩
    · exact hmem
    · cases hnone

/-! ### Programs -/

lemma lowerFunctions_induct {Q : Ids → List Function → List Function → Ids → Prop}
    (nil : ∀ {ids}, Q ids [] [] ids)
    (cons : ∀ {ids f fs lows ids'}, Q (f.lower.run ids).2 fs lows ids' →
      Q ids (f :: fs) ((f.lower.run ids).1 :: lows) ids')
    (fs : List Function) (ids : Ids) :
    Q ids fs ((fs.mapM Function.lower).run ids).1 ((fs.mapM Function.lower).run ids).2 := by
  induction fs generalizing ids with
  | nil => exact nil
  | cons f fs ih =>
    rw [mapM_cons]
    exact cons (ih _)

variable {p} in
/-- What holds of the functions of a program gives what holds of the lowered ones. -/
lemma forall_functions_lower {R S : Function → Prop} (hlower : ∀ f ids, R f → S (f.lower.run ids).1)
    (h : ∀ f ∈ p.functions, R f) (ids : Ids) : ∀ f ∈ (p.lower.run ids).1.functions, S f := by
  refine lowerFunctions_induct (Q := fun _ fs lows _ => (∀ f ∈ fs, R f) → ∀ f ∈ lows, S f)
    (fun _ => forall_mem_nil _) (fun ih h => ?_) p.functions ids h
  rw [forall_mem_cons] at h ⊢
  exact ⟨hlower _ _ h.1, ih h.2⟩

lemma reach_lower_program : ids.Reach (p.lower.run ids).2 :=
  lowerFunctions_induct (Q := fun ids _ _ ids' => ids.Reach ids') (.refl _)
    (fun h => (reach_lower_function _ _).trans h) p.functions ids

/-- What lowering adds to the lists of all functions, if it takes the numbers of a counter. -/
lemma count_functions_lower {α : Type} [DecidableEq α] {g : Function → List α} {next : Ids → Nat}
    (hnext : ∀ {ids ids'}, ids.Reach ids' → next ids ≤ next ids') {a : α} {n : Nat}
    (h : ∀ f ids, (g (f.lower.run ids).1).count a =
      (g f).count a + within (next ids) (next (f.lower.run ids).2) n) (p : Program) (ids : Ids) :
    ((p.lower.run ids).1.functions.flatMap g).count a = (p.functions.flatMap g).count a +
      within (next ids) (next (p.lower.run ids).2) n := by
  refine (lowerFunctions_induct (Q := fun ids fs lows ids' => ids.Reach ids' ∧
    (lows.flatMap g).count a = (fs.flatMap g).count a + within (next ids) (next ids') n)
    ?_ ?_ p.functions ids).2
  · exact ⟨.refl _, by rw [within_self, Nat.add_zero]⟩
  · rintro ids f fs lows ids' ⟨hreach, hfs⟩
    have hf := reach_lower_function f ids
    refine ⟨hf.trans hreach, ?_⟩
    have hadd := within_add (hnext hf) (hnext hreach) n
    rw [flatMap_cons, flatMap_cons, count_append, count_append, hfs, h]
    omega

lemma count_placed_lower (label : Label) :
    (p.lower.run ids).1.placed.count label = p.placed.count label +
      within ids.nextLabel (p.lower.run ids).2.nextLabel label.index :=
  count_functions_lower (·.labels) (fun f ids => count_placed_lower_function f ids label) p ids

/-- Lowering keeps the variables of a program, and introduces every fresh one once. -/
lemma count_vars_lower (id : VarId) :
    ((p.lower.run ids).1.vars.map (·.id)).count id = (p.vars.map (·.id)).count id +
      within ids.nextVar (p.lower.run ids).2.nextVar id.index := by
  have hfunctions := count_functions_lower (g := fun f => f.vars.map (·.id)) (·.vars)
    (fun f ids => count_vars_lower_function f ids id) p ids
  rw [Program.vars, Program.vars, map_append, map_append, count_append,
    count_append, map_flatMap, map_flatMap, hfunctions, Nat.add_assoc]
  rfl

lemma runnable_lower_program {p : Program}
    (h : ∀ f ∈ p.functions, ∃ body, f.body = .structured body ∧ Structured none body) (ids : Ids) :
    ∀ f ∈ (p.lower.run ids).1.functions, f.body.Runnable := by
  refine forall_functions_lower (fun f ids hf => ?_) h ids
  obtain ⟨body, hbody, hstructured⟩ := hf
  exact runnable_lower hbody hstructured ids

lemma function?_lower (id : FunctionId) :
    (p.function? id = none ∧ (p.lower.run ids).1.function? id = none) ∨
      ∃ f ids', p.function? id = some f ∧ ids.Reach ids' ∧
        (p.lower.run ids).1.function? id = some (f.lower.run ids').1 := by
  refine lowerFunctions_induct (Q := fun ids fs lows _ =>
    (fs.find? (·.symbol.id = id) = none ∧ lows.find? (·.symbol.id = id) = none) ∨
      ∃ f ids', fs.find? (·.symbol.id = id) = some f ∧ ids.Reach ids' ∧
        lows.find? (·.symbol.id = id) = some (f.lower.run ids').1) ?_ ?_ p.functions ids
  · exact .inl ⟨rfl, rfl⟩
  · intro ids f fs lows _ ih
    by_cases hid : f.symbol.id = id
    · exact .inr ⟨f, ids, by simp [hid], .refl ids, by simp [hid]⟩
    · have hf : decide (f.symbol.id = id) = false := decide_eq_false hid
      rw [find?_cons, find?_cons, symbol_lower, hf]
      refine ih.imp_right ?_
      rintro ⟨g, ids', hg, hreach, hlow⟩
      exact ⟨g, ids', hg, (reach_lower_function f ids).trans hreach, hlow⟩

end Parcel.Code
