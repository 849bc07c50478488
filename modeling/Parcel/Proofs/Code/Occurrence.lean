import Parcel.Proofs.Code.Layout

/-!
# Parts of a statement in its lowered code

A loop somewhere inside a body has its code as one piece of the code of the body, as if it had been
lowered alone with other counters. What its code may change in a frame is what it assigns, what it
introduces and what is fresh.
-/

namespace Parcel.Code

open List

variable {stmt part piece : Stmt} {ids : Ids} {id : VarId} {loops : Option LoopLabels}

/-! ### Pieces of code -/

@[simp] lemma declared?_lower (stmt : Stmt) (ids : Ids) :
    declared? (stmt.lower.run ids).1 = declared? stmt := by
  cases stmt with
  | ifElse condition first second => cases second <;> rfl
  | _ => rfl

@[simp] lemma own_lower (stmt : Stmt) (ids : Ids) : (stmt.lower.run ids).1.own = stmt.own := by
  rw [Stmt.own, Stmt.own, declared?_lower]

lemma Stmt.Keeps.lower (h : stmt.Keeps) (ids : Ids) : (stmt.lower.run ids).1.Keeps := by
  cases stmt with
  | delete => exact h
  | ifElse condition first second => cases second <;> exact trivial
  | _ => exact trivial

/-- Where a part of a statement is in the lowered code of the statement. -/
def Occurs (ids : Ids) (part : Stmt) (code : List Stmt) : Prop :=
  ∃ ids' loops, ids.Reach ids' ∧ Structured loops part ∧ (part.lower.run ids').1.flat <:+: code

lemma Occurs.mono {ids' : Ids} {code code' : List Stmt} (h : Occurs ids' part code)
    (hreach : ids.Reach ids') (hcode : code <:+: code') : Occurs ids part code' := by
  obtain ⟨ids₁, loops, hreach₁, hpart, hpiece⟩ := h
  exact ⟨ids₁, loops, hreach.trans hreach₁, hpart, hpiece.trans hcode⟩

lemma occurs_lowerAll {child : Stmt} (stmts : List Stmt) (ids : Ids) (h : Structured loops child)
    (hchild : child ∈ stmts) : Occurs ids child (((lowerAll stmts).run ids).1.flatMap Stmt.flat) := by
  induction stmts generalizing ids with
  | nil => exact absurd hchild not_mem_nil
  | cons stmt stmts ih =>
    have hlow : ((lowerAll (stmt :: stmts)).run ids).1.flatMap Stmt.flat =
        (stmt.lower.run ids).1.flat ++
          ((lowerAll stmts).run (stmt.lower.run ids).2).1.flatMap Stmt.flat := rfl
    rw [hlow]
    rcases mem_cons.mp hchild with rfl | hchild
    · exact ⟨ids, loops, .refl ids, h, (prefix_append _ _).isInfix⟩
    · exact (ih (stmt.lower.run ids).2 hchild).mono (introduces_lower stmt ids).reach
        (suffix_append _ _).isInfix

/-- The lowered code of a statement directly inside another is a piece of its lowered code. -/
lemma occurs_child {child : Stmt} (h : Structured loops stmt) (hchild : child ∈ stmt.children)
    (ids : Ids) : Occurs ids child (stmt.lower.run ids).1.flat := by
  -- the two counting loops have the same jump code
  have hcounting (ids : Ids) (iterator : Var) (lower upper : Expr) {body : Stmt} (labels : LoopLabels)
      (hbody : body.Keeps) : (body.lower.run (ids.skip 1 2)).1.flat <:+:
        (countingCode (ids.localVar boundName .int) (ids.labelAt 0) (ids.labelAt 1) iterator lower
          upper (body.lower.run (ids.skip 1 2)).1 labels).flat := by
    rw [flat_countingCode (hbody.lower _)]
    exact ⟨_, _, by simp only [append_assoc]; rfl⟩
  cases h with
  | declare | ret | expr | onBreak | onContinue => exact absurd hchild not_mem_nil
  | @block _ stmts h =>
    have hlow : ((Stmt.block stmts).lower.run ids).1 = .block ((lowerAll stmts).run ids).1 := rfl
    rw [hlow, flat_block]
    exact (occurs_lowerAll stmts ids (h child hchild) hchild).mono (.refl ids)
      (prefix_append _ _).isInfix
  | @ifThen _ condition branch h =>
    obtain rfl := mem_singleton.mp hchild
    refine ⟨ids.skip 0 2, loops, ids.reach_skip 0 2, h, ?_⟩
    have hlow : ((Stmt.ifElse condition child none).lower.run ids).1 = ifCode (ids.labelAt 0)
      (ids.labelAt 1) condition (child.lower.run (ids.skip 0 2)).1 := rfl
    rw [hlow, flat_ifCode (h.keeps.lower _)]
    exact ⟨_, _, by simp only [append_assoc]; rfl⟩
  | @ifElse _ condition first second h₁ h₂ =>
    have hlow : ((Stmt.ifElse condition first (some second)).lower.run ids).1 =
      ifElseCode (ids.labelAt 0) (ids.labelAt 1) (ids.labelAt 2) condition
        (first.lower.run (ids.skip 0 3)).1
        (second.lower.run (first.lower.run (ids.skip 0 3)).2).1 := rfl
    rw [hlow, flat_ifElseCode (h₁.keeps.lower _) (h₂.keeps.lower _)]
    have hreach := (introduces_lower first (ids.skip 0 3)).reach
    rcases mem_pair.mp hchild with rfl | rfl
    · exact ⟨_, loops, ids.reach_skip 0 3, h₁, _, _, by simp only [append_assoc]; rfl⟩
    · exact ⟨_, loops, (ids.reach_skip 0 3).trans hreach, h₂, _ ++ _ ++ _, _,
        by simp only [append_assoc]; rfl⟩
  | @whileLoop _ condition body labels h =>
    obtain rfl := mem_singleton.mp hchild
    refine ⟨ids.skip 0 1, _, ids.reach_skip 0 1, h, ?_⟩
    have hlow : ((Stmt.whileLoop condition child labels).lower.run ids).1 =
      whileCode (ids.labelAt 0) condition (child.lower.run (ids.skip 0 1)).1 labels := rfl
    rw [hlow, flat_whileCode (h.keeps.lower _)]
    exact ⟨_, _, by simp only [append_assoc]; rfl⟩
  | @forLoop _ condition initial action body labels hi ha hb =>
    let ids₁ := (initial.lower.run (ids.skip 0 1)).2
    let ids₂ := (body.lower.run (ids₁.skip 0 1)).2
    have hlow : ((Stmt.forLoop initial condition action body labels).lower.run ids).1 =
      forCode (ids.labelAt 0) (ids₁.labelAt 0) (initial.lower.run (ids.skip 0 1)).1 condition
        (action.lower.run ids₂).1 (body.lower.run (ids₁.skip 0 1)).1 labels
        (declared? (initial.lower.run (ids.skip 0 1)).1) := by
      rw [declared?_lower]
      rfl
    have hreach : ids.Reach (ids₁.skip 0 1) :=
      ((ids.reach_skip 0 1).trans (introduces_lower initial _).reach).trans (ids₁.reach_skip 0 1)
    rw [hlow, flat_forCode (hi.keeps.lower _) (ha.keeps.lower _) (hb.keeps.lower _)]
    simp only [Stmt.children, mem_cons, not_mem_nil, or_false] at hchild
    rcases hchild with rfl | rfl | rfl
    · exact ⟨_, loops, ids.reach_skip 0 1, hi, [], _,
        by simp only [append_assoc, nil_append]; rfl⟩
    · exact ⟨ids₂, loops, hreach.trans (introduces_lower body _).reach, ha, _ ++ _ ++ _ ++ _, _,
        by simp only [append_assoc]; rfl⟩
    · exact ⟨_, _, hreach, hb, _ ++ _, _, by simp only [append_assoc]; rfl⟩
  | fromTo iterator lower upper h =>
    obtain rfl := mem_singleton.mp hchild
    exact ⟨_, _, ids.reach_skip 1 2, h, hcounting ids iterator lower upper _ h.keeps⟩
  | loop iterator count h =>
    obtain rfl := mem_singleton.mp hchild
    exact ⟨_, _, ids.reach_skip 1 2, h, hcounting ids iterator _ count _ h.keeps⟩

/-- **The lowered code of a part is a piece** of the lowered code of the whole. -/
theorem infix_lower (stmt : Stmt) (h : Structured loops stmt) (hpart : part ∈ stmt.parts)
    (ids : Ids) : Occurs ids part (stmt.lower.run ids).1.flat := by
  refine Stmt.part_induct (P := fun stmt => ∀ {loops ids}, Structured loops stmt →
    Occurs ids part (stmt.lower.run ids).1.flat) ?_ ?_ stmt hpart h
  · exact fun h => ⟨_, _, .refl _, h, infix_rfl⟩
  · intro stmt child hchild ih loops ids h
    obtain ⟨ids', loops', hreach, hstructured, hpiece⟩ := occurs_child h hchild ids
    exact (ih hstructured).mono hreach hpiece

/-! ### What lowered code may change -/

/-- Something is stored in a variable of the frame. -/
def Stores (accesses : List Access) (id : VarId) : Prop :=
  ∃ v : Var, v.id = id ∧ v.isGlobal = false ∧ Access.write v ∈ accesses

/-- The statement may change a variable of its frame: it stores in it, declares it or deletes it. -/
def Stmt.Changes (stmt : Stmt) (id : VarId) : Prop :=
  Stores stmt.ownAccesses id ∨ ∃ v : Var, v.id = id ∧ (v ∈ stmt.own ∨ stmt = .delete v)

lemma Stores.mono {accesses accesses' : List Access} (h : Stores accesses id)
    (hsub : accesses ⊆ accesses') : Stores accesses' id := by
  obtain ⟨v, hid, hlocal, hmem⟩ := h
  exact ⟨v, hid, hlocal, hsub hmem⟩

lemma forall_changes_iff {Q : VarId → Prop} : (∀ id, stmt.Changes id → Q id) ↔
    (∀ v, Access.write v ∈ stmt.ownAccesses → v.isGlobal = false → Q v.id) ∧
      (∀ v ∈ stmt.own, Q v.id) ∧ ∀ v, stmt = .delete v → Q v.id := by
  grind [Stmt.Changes, Stores]

lemma survives_changes (accesses : List Access) (vars : List Var) :
    Survives (fun part => ∀ id, part.Changes id → Stores accesses id ∨ id ∈ vars.map (·.id))
      (· ∈ vars) := by
  simp only [forall_changes_iff]
  constructor
  all_goals grind [Stmt.ownAccesses, Stmt.own, declared?, Expr.int, Expr.accesses]

/-- **Lowered code changes** what the statement stores in, and what is introduced in the code. -/
theorem changesOnly_lower (stmt : Stmt) (ids : Ids) (h : Structured loops stmt)
    (hpiece : piece ∈ (stmt.lower.run ids).1.flat) (hchanges : piece.Changes id) :
    Stores stmt.accesses id ∨ id ∈ (stmt.lower.run ids).1.varIds := by
  have hsurvives := survives_changes stmt.accesses (stmt.lower.run ids).1.vars
  refine hsurvives.forall_flat (isJumpCode_lower stmt ids) (hsurvives.forall_lower stmt ids ?_
    fun _ hv => hv) piece hpiece id hchanges
  rintro part hpart id (hstores | ⟨v, rfl, hv | hv⟩)
  · exact .inl (hstores.mono fun a ha => mem_flatMap.mpr ⟨part, hpart, ha⟩)
  · have hown : v ∈ part.ownVars := by
      cases part <;> simp_all [Stmt.own, declared?, Stmt.ownVars]
    exact .inr (mem_map_of_mem
      ((introduces_lower stmt ids).vars (mem_flatMap.mpr ⟨part, hpart, hown⟩)))
  · exact absurd hv (h.ne_delete part hpart v)

/-- What is introduced in lowered code is introduced in the statement or fresh. -/
lemma mem_varIds_or_fresh (h : id ∈ (stmt.lower.run ids).1.varIds) :
    id ∈ stmt.varIds ∨ ids.nextVar ≤ id.index := by
  have hcount := (introduces_lower stmt ids).varIds id
  have hpos := count_pos_iff.mpr h
  by_cases hold : id ∈ stmt.varIds
  · exact .inl hold
  · rw [count_eq_zero.mpr hold] at hcount
    unfold within at hcount
    split at hcount <;> omega

/-- **What lowered code may change** in a frame: what the statement stores in, what it introduces,
and fresh variables. -/
theorem changes_lower (h : Structured loops stmt) (hpiece : piece ∈ (stmt.lower.run ids).1.flat)
    (hchanges : piece.Changes id) :
    Stores stmt.accesses id ∨ id ∈ stmt.varIds ∨ ids.nextVar ≤ id.index :=
  (changesOnly_lower stmt ids h hpiece hchanges).imp_right mem_varIds_or_fresh

end Parcel.Code
