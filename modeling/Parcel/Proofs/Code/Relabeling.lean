import Parcel.Proofs.Binding.Phase

/-!
# Lowering under a renaming

Code with other ids, lowered from other counters, becomes the same lowered code with other ids. How
many ids lowering takes does not depend on where the counters stand; so it is enough that the
renaming takes those that are taken from the one counters to those that are taken from the others.
-/

namespace Parcel.Code

open List

/-! ### Computations with fresh ids -/

/-- Both computations take the same number of ids, none of them for a function; and if the renaming
takes those of the one to those of the other, the second does under new ids what the first does. -/
def Tracks {α β : Type} (ρ : Renaming) (f : α → β) (action : Fresh α) (action' : Fresh β) : Prop :=
  ∀ ids, ∃ n : Ids, n.nextFunction = 0 ∧ (action.run ids).2 = ids + n ∧
    ∀ ids', ρ.Aligns n ids ids' → action'.run ids' = (f (action.run ids).1, ids' + n)

section Rules

variable {ρ : Renaming}

lemma tracks_pure {α β : Type} (f : α → β) (a : α) : Tracks ρ f (pure a) (pure (f a)) :=
  fun _ => ⟨{}, rfl, rfl, fun _ _ => rfl⟩

lemma Tracks.bind {α β γ δ : Type} {f : α → β} {g : γ → δ} {action : Fresh α}
    {action' : Fresh β} {next : α → Fresh γ} {next' : β → Fresh δ} (h : Tracks ρ f action action')
    (hnext : ∀ a, Tracks ρ g (next a) (next' (f a))) :
    Tracks ρ g (action >>= next) (action' >>= next') := by
  intro ids
  obtain ⟨n, hn, hids, hrun⟩ := h ids
  obtain ⟨m, hm, hids₂, hrun₂⟩ := hnext (action.run ids).1 (action.run ids).2
  refine ⟨n + m, ?_, ?_, fun ids' haligns => ?_⟩
  · rw [Ids.nextFunction_add, hn, hm]
  · have hbind : ((action >>= next).run ids).2 =
        ((next (action.run ids).1).run (action.run ids).2).2 := rfl
    rw [hbind, hids₂, hids, Ids.add_assoc]
  · have hbind : (action' >>= next').run ids' =
        (next' (action'.run ids').1).run (action'.run ids').2 := rfl
    rw [hbind, hrun ids' haligns.left, ← Ids.add_assoc]
    exact hrun₂ (ids' + n) (hids ▸ haligns.right)

lemma tracks_freshLabel : Tracks ρ (Label.rename ρ) freshLabel freshLabel := by
  refine fun ids => ⟨⟨0, 0, 1⟩, rfl, rfl, fun ids' haligns => ?_⟩
  have hlabel : ρ.label ids.nextLabel = ids'.nextLabel := haligns.label 0 Nat.one_pos
  show (Label.mk ids'.nextLabel, _) = (Label.mk (ρ.label ids.nextLabel), _)
  rw [hlabel]
  rfl

lemma tracks_freshLocal (name : String) (type : Ty) :
    Tracks ρ (Var.rename ρ) (freshLocal name type) (freshLocal name type) := by
  refine fun ids => ⟨⟨1, 0, 0⟩, rfl, rfl, fun ids' haligns => ?_⟩
  have hvar : ρ.var ids.nextVar = ids'.nextVar := haligns.var 0 Nat.one_pos
  show (Var.mk ⟨ids'.nextVar⟩ name type .local, _) =
    (Var.mk ⟨ρ.var ids.nextVar⟩ name type .local, _)
  rw [hvar]
  rfl

end Rules

/-! ### Statements -/

section Statements

variable (ρ : Renaming)

lemma declared?_rename (stmt : Stmt) :
    declared? (stmt.rename ρ) = (declared? stmt).map (·.rename ρ) := by
  cases stmt with
  | ifElse condition first second => cases second <;> rfl
  | _ => rfl

lemma forCode_rename (test start : Label) (initial : Stmt) (condition : Expr) (action body : Stmt)
    (labels : LoopLabels) (declared : Option Var) :
    (forCode test start initial condition action body labels declared).rename ρ =
      forCode (test.rename ρ) (start.rename ρ) (initial.rename ρ) (condition.rename ρ)
        (action.rename ρ) (body.rename ρ) (labels.rename ρ) (declared.map (·.rename ρ)) := by
  cases declared <;> rfl

lemma countingCode_rename (bound : Var) (test start : Label) (iterator : Var) (lower upper : Expr)
    (body : Stmt) (labels : LoopLabels) :
    (countingCode bound test start iterator lower upper body labels).rename ρ =
      countingCode (bound.rename ρ) (test.rename ρ) (start.rename ρ) (iterator.rename ρ)
        (lower.rename ρ) (upper.rename ρ) (body.rename ρ) (labels.rename ρ) := by
  simp only [countingCode, Stmt.rename, renameAll, forCode_rename, Expr.rename, Expr.span_rename,
    Option.map_some]

/-- **Statements are lowered in the same way** under new ids. -/
theorem tracks_lower (stmt : Stmt) : Tracks ρ (Stmt.rename ρ) stmt.lower (stmt.rename ρ).lower := by
  induction stmt using Stmt.structural with
  | block stmts ih =>
    have hall : ∀ stmts : List Stmt,
        (∀ stmt ∈ stmts, Tracks ρ (Stmt.rename ρ) stmt.lower (stmt.rename ρ).lower) →
        Tracks ρ (renameAll ρ) (lowerAll stmts) (lowerAll (renameAll ρ stmts)) := by
      intro stmts
      induction stmts with
      | nil => exact fun _ => tracks_pure (renameAll ρ) []
      | cons stmt stmts ihs =>
        intro h
        exact (h stmt mem_cons_self).bind fun low =>
          (ihs fun s hs => h s (mem_cons_of_mem _ hs)).bind fun lows =>
            tracks_pure (renameAll ρ) (low :: lows)
    exact (hall stmts ih).bind fun lows => tracks_pure (Stmt.rename ρ) (.block lows)
  | ifThen condition branch ih =>
    exact tracks_freshLabel.bind fun inner => tracks_freshLabel.bind fun done => ih.bind fun low =>
      tracks_pure (Stmt.rename ρ) (ifCode inner done condition low)
  | ifElse condition first second ih₁ ih₂ =>
    exact tracks_freshLabel.bind fun inner => tracks_freshLabel.bind fun otherwise =>
      tracks_freshLabel.bind fun done => ih₁.bind fun low₁ => ih₂.bind fun low₂ =>
        tracks_pure (Stmt.rename ρ) (ifElseCode inner otherwise done condition low₁ low₂)
  | whileLoop condition body labels ih =>
    exact tracks_freshLabel.bind fun start => ih.bind fun low =>
      tracks_pure (Stmt.rename ρ) (whileCode start condition low labels)
  | forLoop initial condition action body labels ihi iha ihb =>
    refine tracks_freshLabel.bind fun test => ihi.bind fun initialLow =>
      tracks_freshLabel.bind fun start => ihb.bind fun bodyLow => iha.bind fun actionLow => ?_
    rw [declared?_rename, ← forCode_rename]
    exact tracks_pure (Stmt.rename ρ) _
  | fromTo iterator lower upper body labels ih =>
    refine (tracks_freshLocal _ _).bind fun bound => tracks_freshLabel.bind fun test =>
      tracks_freshLabel.bind fun start => ih.bind fun low => ?_
    rw [← countingCode_rename]
    exact tracks_pure (Stmt.rename ρ) _
  | loop iterator count body labels ih =>
    refine (tracks_freshLocal _ _).bind fun bound => tracks_freshLabel.bind fun test =>
      tracks_freshLabel.bind fun start => ih.bind fun low => ?_
    have hzero : Expr.int 0 (count.rename ρ).span = (Expr.int 0 count.span).rename ρ := by
      rw [Expr.span_rename]
      rfl
    rw [hzero, ← countingCode_rename]
    exact tracks_pure (Stmt.rename ρ) _
  | declare | ret | expr | label | goto | gotoIf | delete | approach =>
    exact tracks_pure (Stmt.rename ρ) _

/-! ### Blocks -/

lemma deletedIds_rename (stmts : List Stmt) :
    deletedIds (stmts.map (·.rename ρ)) = (deletedIds stmts).map fun id => ⟨ρ.var id.index⟩ := by
  rw [deletedIds, deletedIds, filterMap_map, map_filterMap]
  refine filterMap_congr fun stmt _ => ?_
  cases stmt with
  | ifElse condition first second => cases second <;> rfl
  | _ => rfl

/-- What the end of a block deletes depends on which variables are the same only. -/
lemma cleanup_rename (stmts : List Stmt) :
    cleanup (stmts.map (·.rename ρ)) = (cleanup stmts).map (·.rename ρ) := by
  have hinjective : Function.Injective fun id : VarId => VarId.mk (ρ.var id.index) := by
    rintro ⟨a⟩ ⟨b⟩ h
    exact congrArg VarId.mk (ρ.var.injective (VarId.mk.inj h))
  rw [cleanup, cleanup, deletedIds_rename, ← map_reverse, filterMap_map,
    map_filterMap]
  refine filterMap_congr fun stmt _ => ?_
  cases stmt with
  | declare v =>
    have hmem : (v.rename ρ).id ∈ (deletedIds stmts).map (fun id => VarId.mk (ρ.var id.index)) ↔
        v.id ∈ deletedIds stmts := mem_map_of_injective hinjective
    simp only [Function.comp_apply, Stmt.rename, deletionFor?, hmem]
    split <;> rfl
  | ifElse condition first second => cases second <;> rfl
  | _ => rfl

/-- **Blocks are opened in the same way** under new ids. -/
theorem flat_rename (stmt : Stmt) : (stmt.rename ρ).flat = stmt.flat.map (·.rename ρ) := by
  induction stmt using Stmt.structural with
  | block stmts ih =>
    rw [Stmt.rename, renameAll_eq_map, flat_block, flat_block, cleanup_rename, map_append,
      flatMap_map, map_flatMap]
    exact congrArg (· ++ _) (flatMap_congr ih)
  | _ => rfl

end Statements

/-! ### Functions -/

lemma tracks_lower_body (ρ : Renaming) (body : Body) :
    Tracks ρ (Body.rename ρ) body.lower (body.rename ρ).lower := by
  cases body with
  | structured stmt =>
    refine (tracks_lower ρ stmt).bind fun low => ?_
    have hcode : Body.lowered (flatten (low.rename ρ)).toArray =
        (Body.lowered (flatten low).toArray).rename ρ := by
      rw [flatten_eq_flat, flatten_eq_flat, flat_rename, Body.rename, map_toArray]
    rw [hcode]
    exact tracks_pure (Body.rename ρ) _
  | lowered => exact tracks_pure (Body.rename ρ) _

/-- **Functions are lowered in the same way** under new ids. -/
theorem tracks_lower_function (ρ : Renaming) (f : Function) :
    Tracks ρ (Function.rename ρ) f.lower (f.rename ρ).lower :=
  (tracks_lower_body ρ f.body).bind fun body =>
    tracks_pure (Function.rename ρ) { f with body }

end Parcel.Code
