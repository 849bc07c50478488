import Parcel.Proofs.Binding.Declared

/-!
# What binding builds has no later ids

All that is built by binding files stays as it is whatever becomes of the ids from the counters on.
This passes from one binding of a session to the next.
-/

namespace Parcel

/-- Whatever becomes of the ids from the counters on, the build stays as it is. -/
structure Build.Supported (b : Build) : Prop where
  catalog : b.catalog.Supported b.ids
  functions : ∀ σ : Renaming, σ.Fixes b.ids → σ.file = Equiv.refl Nat →
    ∀ f ∈ b.program.functions, f.rename σ = f
  globals : ∀ σ : Renaming, σ.Fixes b.ids → σ.file = Equiv.refl Nat →
    b.program.globals.map (·.rename σ) = b.program.globals

lemma Renaming.Fixes.of_reach {σ : Renaming} {ids ids' : Ids} (h : σ.Fixes ids')
    (hreach : ids.Reach ids') : σ.Fixes ids where
  var n hn := h.var n (Nat.lt_of_lt_of_le hn hreach.vars)
  function n hn := h.function n (Nat.lt_of_lt_of_le hn hreach.functions)
  label n hn := h.label n (Nat.lt_of_lt_of_le hn hreach.labels)

lemma Draft.Supported.build {b : Build} {pending : List Pending} (h : (b.draft pending).Supported) :
    b.Supported where
  catalog σ hσ := congrArg Draft.catalog
    (h { σ with file := .refl _ } ⟨hσ.var, hσ.function, hσ.label⟩ rfl)
  functions σ hσ hfile := map_eq_self_iff.mp (congrArg Draft.functions (h σ hσ hfile))
  globals σ hσ hfile := by
    have hdraft := congrArg Draft.initializers (h σ hσ hfile)
    refine map_eq_self_iff.mpr fun group hgroup => ?_
    have hinitializers := map_eq_self_iff.mp (congrFun hdraft group.package)
    have hstmts : group.stmts.map (·.rename σ) = group.stmts := by
      refine map_eq_self_iff.mpr fun stmt hstmt => ?_
      have hmem : (⟨group.file, stmt⟩ : Initializer) ∈ b.program.initializers group.package := by
        refine List.mem_flatMap.mpr ⟨group, hgroup, ?_⟩
        rw [if_pos rfl]
        exact List.mem_map_of_mem hstmt
      exact congrArg Initializer.stmt (hinitializers _ hmem)
    rw [Code.GlobalGroup.rename, hstmts]

/-- **What binding builds has no later ids**, if the catalog before has none. -/
theorem supported_bindFiles {c : Catalog} {ids : Ids} (hd : c.Distinct) (h : c.Supported ids)
    (files : List Syntax.Program) : (bindFiles c ids files).Supported := by
  obtain ⟨hdraft, hopen⟩ := draft_bindFiles hd ids files
  have hdeclared := h.declaredDraft hd (indexed files)
  have hdistinct := hopen.distinct (opened_openedDraft ids (indexed files) hd).1
  have hrun := Phase.supported_run (s := bodyPhase) (declaredDraft c ids (indexed files)).pending
    hdistinct hdeclared fun f hf => ⟨hopen.mem (hopen.housed f hf), fun σ hσ hfile =>
      map_eq_self_iff.mp (congrArg Draft.pending (hdeclared σ hσ hfile)) f hf⟩
  rw [← hdraft] at hrun
  exact hrun.build

/-- **The catalogs of sessions have no later ids.** -/
theorem Session.Reached.supported {before : Catalog} {bound : Code.Program} {lowered : Bool}
    {s : Session} (h : Session.Reached before bound lowered s) :
    s.catalog.Distinct ∧ s.catalog.Supported s.ids := by
  induction h with
  | new =>
    rw [Session.new_eq]
    have hdistinct := Session.distinct_withSys
    have hbelow := below_withSys
    generalize Catalog.empty.withSys {} = sys at hdistinct hbelow ⊢
    exact ⟨hdistinct, hbelow.supported⟩
  | @bind _ _ _ s _ files _ hbind ih =>
    obtain ⟨-, rfl⟩ := Session.bind_cases hbind
    exact ⟨(extends_bindFiles ih.1 s.ids files).distinct,
      (supported_bindFiles ih.1 ih.2 files).catalog⟩
  | @lower _ _ _ s _ _ hlower ih =>
    obtain rfl := Session.lower_cases hlower
    exact ⟨ih.1, fun σ hσ => ih.2 σ (hσ.of_reach (Code.reach_lower_program s.program s.ids))⟩

end Parcel
