import Parcel.Proofs.Binding.Declared

/-!
# Bodies are bound independently

Files that differ in the body of one function are bound to the same result, but for what that body
itself adds: its own tree and its own errors. It may take another number of ids, so the ids in the
bodies that follow are shifted; nothing else of it reaches them.

## Main results

* `rename_bodiesTask` — bodies that are bound from other counters.
* `bindFiles_apart_of_body` — files that differ in the body of one function.
-/

namespace Parcel

open List

variable {d d' : Draft} {ρ : Renaming} {b b' : Build}

/-- What the body of a declaration adds: nothing if the function was refused. -/
def bodyEffect (index : Nat) (decl : Syntax.FunctionDecl) (c : Catalog) (ids : Ids) :
    Option FunctionSymbol → Effect
  | none => {}
  | some symbol => bodyTask (pendingAt index decl symbol) c ids

/-- What is built is the same but for what one body adds, here `e` and there `e'`. The functions
after it have new ids; those of all that was built before it stay. -/
structure Build.Apart (ρ : Renaming) (e e' : Effect) (b b' : Build) : Prop where
  catalog : b'.catalog = b.catalog
  initializers : ∀ package, b'.program.initializers package = b.program.initializers package
  symbols : b'.program.functions.map (·.symbol) = b.program.functions.map (·.symbol)
  functions : ∃ before after, b.program.functions = before ++ e.functions ++ after ∧
    b'.program.functions = before ++ e'.functions ++ after.map (·.rename ρ) ∧
    before.map (·.rename ρ) = before
  errors : ∃ before after, b.errors.toList = before ++ e.errors ++ after ∧
    b'.errors.toList = before ++ e'.errors ++ after
  catalog_rename : b.catalog.rename ρ = b.catalog
  initializers_rename : ∀ package,
    (b.program.initializers package).map (·.rename ρ) = b.program.initializers package

/-! ### Bodies one after another -/

/-- The draft with what bodies add. -/
def Draft.addBodies (d : Draft) (e : Effect) : Draft :=
  { d with
    ids := d.ids + e.taken
    functions := d.functions ++ e.functions
    errors := d.errors ++ e.errors }

/-- What bodies add, one after another. -/
def bodiesTask : List Pending → Task
  | [], _, _ => {}
  | f :: l, c, ids =>
    (bodyTask f c ids).append (bodiesTask l c (ids + (bodyTask f c ids).taken))

lemma step_bodyPhase (d : Draft) (f : Pending) :
    bodyPhase.step d f = d.addBodies (bodyTask f d.catalog d.ids) := by
  show d.apply f.symbol.package (bodyTask f d.catalog d.ids) = _
  have hstill : (bodyTask f d.catalog d.ids).growth = {} := rfl
  have hpending : (bodyTask f d.catalog d.ids).pending = [] := rfl
  simp only [Draft.apply, Draft.addBodies, hstill, hpending, Catalog.grow_nil, append_nil,
    ite_self]

lemma run_bodyPhase (l : List Pending) (d : Draft) :
    bodyPhase.run l d = d.addBodies (bodiesTask l d.catalog d.ids) := by
  induction l generalizing d with
  | nil =>
    simp only [Phase.run, foldl_nil, bodiesTask, Draft.addBodies, append_nil]
    rfl
  | cons f l ih =>
    rw [Phase.run, foldl_cons, step_bodyPhase]
    refine (ih _).trans ?_
    simp only [Draft.addBodies, bodiesTask, Effect.append, Ids.add_assoc, append_assoc]

/-- The members of the files do not matter to the bodies. -/
lemma run_bodyPhase_alone (l : List Pending) (d : Draft) :
    bodyPhase.run (l.map (·.alone)) d = bodyPhase.run l d := by
  rw [Phase.run, foldl_map]
  rfl

lemma run_bodyPhase_found (index : Nat) (decl : Syntax.FunctionDecl)
    (found : Option FunctionSymbol) (d : Draft) :
    bodyPhase.run (found.toList.map (pendingAt index decl)) d =
      d.addBodies (bodyEffect index decl d.catalog d.ids found) := by
  cases found with
  | none => exact run_bodyPhase [] d
  | some => exact step_bodyPhase d _

section Bodies

variable (l : List Pending) (c : Catalog) (ids : Ids)

lemma nextFunction_bodiesTask : (bodiesTask l c ids).taken.nextFunction = 0 := by
  induction l generalizing ids with
  | nil => rfl
  | cons f l ih => simp only [bodiesTask, Effect.append, Ids.nextFunction_add,
      nextFunction_bodyTask, ih]

lemma symbols_bodiesTask :
    (bodiesTask l c ids).functions.map (·.symbol) = l.map (·.symbol) := by
  induction l generalizing ids with
  | nil => rfl
  | cons f l ih => exact congrArg (f.symbol :: ·) (ih _)

lemma symbols_bodyEffect (index : Nat) (decl : Syntax.FunctionDecl)
    (found : Option FunctionSymbol) :
    (bodyEffect index decl c ids found).functions.map (·.symbol) = found.toList := by
  cases found <;> rfl

end Bodies

/-- **Bodies that are bound from other counters** are the same up to the ids that they take. -/
theorem rename_bodiesTask (hdistinct : d.catalog.Distinct) (hself : d.rename ρ = d)
    {l : List Pending} (hl : ∀ f ∈ l, f.rename ρ = f ∧
      f.symbol.package ∈ d.catalog.names) {ids ids' : Ids}
    (haligns : ρ.Aligns (bodiesTask l d.catalog ids).taken ids ids') :
    bodiesTask l d.catalog ids' = (bodiesTask l d.catalog ids).rename ρ := by
  have hsame : (d.rename ρ).Same d := by
    rw [hself]
    exact .refl d
  induction l generalizing ids ids' with
  | nil => rfl
  | cons f l ih =>
    obtain ⟨hrename, hmem⟩ := hl f mem_cons_self
    have hfirst := matches_bodyTask ρ f _ _ ids ids' (hsame.sees hdistinct hmem) haligns.left
    have hrest := ih (fun g hg => hl g (mem_cons_of_mem _ hg)) haligns.right
    rw [hrename] at hfirst
    simp only [bodiesTask, hfirst, Effect.rename_append]
    exact congrArg _ hrest

/-! ### Other counters -/

namespace Ids

variable (ids n n' m : Ids)

/-- The renaming for tasks that take `m` ids after others, which take `n'` ids in place of `n`. -/
def realign : Renaming :=
  { (ids.exchange n m).trans (ids.exchange m n') with function := .refl _ }

lemma fixes_realign : (ids.realign n n' m).Fixes ids := by
  have hfixes := (ids.fixes_exchange n m).trans (ids.fixes_exchange m n')
  exact ⟨hfixes.var, fun _ _ => rfl, hfixes.label⟩

lemma aligns_realign (h : m.nextFunction = 0) :
    (ids.realign n n' m).Aligns m (ids + n) (ids + n') := by
  have hback := ids.aligns_exchange_second n m
  have hforth := ids.aligns_exchange_first m n'
  refine ⟨fun k hk => ?_, fun k hk => ?_, fun k hk => ?_⟩
  · exact (congrArg (ids.exchange m n').var (hback.var k hk)).trans (hforth.var k hk)
  · rw [h] at hk
    exact absurd hk k.not_lt_zero
  · exact (congrArg (ids.exchange m n').label (hback.label k hk)).trans (hforth.label k hk)

end Ids

/-! ### Another body -/

lemma run_bodyPhase_split (before after : List Pending) (index : Nat)
    (decl : Syntax.FunctionDecl) (found : Option FunctionSymbol) (d : Draft) :
    let d₁ := d.addBodies (bodiesTask before d.catalog d.ids)
    let e := bodyEffect index decl d.catalog d₁.ids found
    bodyPhase.run (before ++ found.toList.map (pendingAt index decl) ++ after) d =
      (d₁.addBodies e).addBodies (bodiesTask after d.catalog (d₁.ids + e.taken)) := by
  have hsplit : bodyPhase.run (before ++ found.toList.map (pendingAt index decl) ++ after) d =
      bodyPhase.run after (bodyPhase.run (found.toList.map (pendingAt index decl))
        (bodyPhase.run before d)) := by
    simp only [Phase.run, foldl_append]
  rw [hsplit, run_bodyPhase before, run_bodyPhase_found, run_bodyPhase after]
  rfl

lemma Draft.Alike.apart (h : d.Alike d') (hself : d.rename ρ = d) (hfile : ρ.file = .refl _)
    {e₁ e e' e₂ : Effect} {pending pending' : List Pending}
    (hb : b.draft pending = ((d.addBodies e₁).addBodies e).addBodies e₂)
    (hb' : b'.draft pending' = ((d'.addBodies e₁).addBodies e').addBodies (e₂.rename ρ))
    (hbefore : (d.functions ++ e₁.functions).map (·.rename ρ) = d.functions ++ e₁.functions)
    (hsymbols : e'.functions.map (·.symbol) = e.functions.map (·.symbol))
    (hsymbols₂ : (e₂.rename ρ).functions.map (·.symbol) = e₂.functions.map (·.symbol)) :
    b.Apart ρ e e' b' := by
  have hcatalog : b.catalog = d.catalog := congrArg Draft.catalog hb
  have hinitializers : b.program.initializers = d.initializers := congrArg Draft.initializers hb
  have hfunctions : b.program.functions =
      d.functions ++ e₁.functions ++ e.functions ++ e₂.functions := congrArg Draft.functions hb
  have hfunctions' : b'.program.functions =
      d'.functions ++ e₁.functions ++ e'.functions ++ (e₂.rename ρ).functions :=
    congrArg Draft.functions hb'
  have herrors : (e₂.rename ρ).errors = e₂.errors := by
    refine map_eq_self_iff.mpr fun error _ => ?_
    rw [FileError.rename, hfile, Equiv.coe_refl, Option.map_id_fun]
    rfl
  rw [h.functions] at hfunctions'
  refine ⟨?_, fun package => ?_, ?_, ⟨_, _, hfunctions, hfunctions', hbefore⟩,
    ⟨d.errors ++ e₁.errors, e₂.errors, congrArg Draft.errors hb, ?_⟩, ?_, fun package => ?_⟩
  · exact ((congrArg Draft.catalog hb').trans h.catalog).trans hcatalog.symm
  · rw [hinitializers, ← h.initializers]
    exact congrFun (congrArg Draft.initializers hb') package
  · rw [hfunctions, hfunctions']
    simp only [map_append, hsymbols, hsymbols₂]
  · rw [← h.errors, ← herrors]
    exact congrArg Draft.errors hb'
  · rw [hcatalog]
    exact congrArg Draft.catalog hself
  · rw [hinitializers]
    exact congrFun (congrArg Draft.initializers hself) package

lemma Draft.Supported.fits (h : d.Supported) {f : Pending} (hf : f ∈ d.pending.map (·.alone))
    (hpresent : ∀ f ∈ d.pending, f.symbol.package ∈ d.catalog.names) :
    bodyPhase.Fits d f := by
  obtain ⟨g, hg, rfl⟩ := mem_map.mp hf
  refine ⟨hpresent g hg, fun σ hσ hfile => ?_⟩
  have hstays := map_eq_self_iff.mp (congrArg Draft.pending (h σ hσ hfile)) g hg
  exact congrArg Pending.alone hstays

/-- **Another body of a pending function** changes nothing but what this body adds and the ids of
the bodies after it. -/
theorem Draft.Beside.exists_apart {index : Nat} {decl decl' : Syntax.FunctionDecl}
    {found : Option FunctionSymbol} (h : d.Beside (found.toList.map (pendingAt index decl))
      (found.toList.map (pendingAt index decl')) d') (hdistinct : d.catalog.Distinct)
    (hsupported : d.Supported)
    (hpresent : ∀ f ∈ d.pending, f.symbol.package ∈ d.catalog.names)
    (hb : b.draft d.pending = bodyPhase.run d.pending d)
    (hb' : b'.draft d'.pending = bodyPhase.run d'.pending d') :
    ∃ (ρ : Renaming) (ids : Ids), ρ.function = .refl _ ∧ ρ.file = .refl _ ∧ ρ.Fixes ids ∧
      b.Apart ρ (bodyEffect index decl b.catalog ids found)
        (bodyEffect index decl' b.catalog ids found) b' := by
  obtain ⟨before, after, hpending, hpending'⟩ := h.pending
  have hfits : ∀ f ∈ before ++ found.toList.map (pendingAt index decl) ++ after,
      bodyPhase.Fits d f := fun f hf => hsupported.fits (hpending ▸ hf) hpresent
  -- what the bodies before, the body itself and the bodies after it add
  obtain ⟨e₁, he₁⟩ : ∃ e₁, e₁ = bodiesTask before d.catalog d.ids := ⟨_, rfl⟩
  obtain ⟨e, he⟩ : ∃ e, e = bodyEffect index decl d.catalog (d.ids + e₁.taken) found := ⟨_, rfl⟩
  obtain ⟨e', he'⟩ : ∃ e', e' = bodyEffect index decl' d.catalog (d.ids + e₁.taken) found :=
    ⟨_, rfl⟩
  obtain ⟨e₂, he₂⟩ : ∃ e₂, e₂ = bodiesTask after d.catalog (d.ids + e₁.taken + e.taken) := ⟨_, rfl⟩
  -- the ids after the body are shifted; those before it stay, and with them all that is declared
  obtain ⟨ρ, hρ⟩ : ∃ ρ, ρ = (d.ids + e₁.taken).realign e.taken e'.taken e₂.taken := ⟨_, rfl⟩
  have hfixes : ρ.Fixes (d.ids + e₁.taken) := hρ ▸ Ids.fixes_realign _ _ _ _
  have hfile : ρ.file = .refl _ := by rw [hρ]; rfl
  have hself : d.rename ρ = d := hsupported ρ hfixes.before hfile
  have hafter : bodiesTask after d.catalog (d.ids + e₁.taken + e'.taken) = e₂.rename ρ := by
    rw [he₂]
    refine rename_bodiesTask hdistinct hself (fun f hf => ?_) ?_
    · have hfits := hfits f (mem_append_right _ hf)
      exact ⟨hfits.supported ρ hfixes.before hfile, hfits.present⟩
    · rw [hρ, ← he₂]
      exact Ids.aligns_realign _ _ _ _ (he₂ ▸ nextFunction_bodiesTask _ _ _)
  have hearlier : (d.addBodies e₁).Supported := by
    rw [he₁, ← run_bodyPhase]
    exact Phase.supported_run before hdistinct hsupported fun f hf =>
      hfits f (mem_append_left _ (mem_append_left _ hf))
  have hbound : b.draft d.pending = ((d.addBodies e₁).addBodies e).addBodies e₂ := by
    rw [hb, ← run_bodyPhase_alone, hpending, run_bodyPhase_split, he₂, he, he₁]
    rfl
  have hbound' : b'.draft d'.pending =
      ((d'.addBodies e₁).addBodies e').addBodies (e₂.rename ρ) := by
    rw [hb', ← run_bodyPhase_alone, hpending', run_bodyPhase_split, ← hafter, he', he₁, h.catalog,
      ← h.ids]
    rfl
  refine ⟨ρ, d.ids + e₁.taken, by rw [hρ]; rfl, hfile, hfixes, ?_⟩
  rw [show b.catalog = d.catalog from congrArg Draft.catalog hbound, ← he, ← he']
  refine h.toAlike.apart hself hfile hbound hbound'
    (congrArg Draft.functions (hearlier ρ hfixes hfile)) ?_ ?_
  · rw [he, he', symbols_bodyEffect, symbols_bodyEffect]
  · rw [← hafter, he₂, symbols_bodiesTask, symbols_bodiesTask]

/-! ### Files -/

lemma exists_indexed_eq (before after : List Syntax.Program) :
    ∃ later, ∀ program, indexed (before ++ program :: after) =
      indexed before ++ ⟨before.length, program⟩ :: later := by
  refine ⟨(after.zipIdx (before.length + 1)).map fun entry => ⟨entry.2, entry.1⟩,
    fun program => ?_⟩
  simp only [indexed, zipIdx_append, zipIdx_cons, map_append, map_cons,
    Nat.zero_add]

/-- **Bodies are bound independently.** Files that differ in the body of one function are bound,
with the natives and nothing else before them, to the same catalog, the same declarations of
variables, and the same functions and errors in the same order, but for the body of that function
and the errors in it. Only ids of variables and labels in the bodies after it are others. If the
function was refused since its name is taken, nothing is added for it. -/
theorem bindFiles_apart_of_body (before after : List Syntax.Program)
    (members members' : List Syntax.Member) (decl : Syntax.FunctionDecl) (body : Syntax.Stmt) :
    let sys := Catalog.empty.withSys {}
    let file := Syntax.Program.around members members' decl
    let b := bindFiles sys.1 sys.2 (before ++ file :: after)
    let b' := bindFiles sys.1 sys.2 (before ++ .around members members' { decl with body } :: after)
    ∃ (ρ : Renaming) (ids : Ids) (found : Option FunctionSymbol),
      ρ.function = .refl _ ∧ ρ.file = .refl _ ∧ ρ.Fixes ids ∧
      Settles b.catalog b.errors.toList before.length file.package decl found ∧
      b.Apart ρ (bodyEffect before.length decl b.catalog ids found)
        (bodyEffect before.length { decl with body } b.catalog ids found) b' := by
  intro sys file b b'
  have hd : sys.1.Distinct := Session.distinct_withSys
  obtain ⟨later, hindexed⟩ := exists_indexed_eq before after
  obtain ⟨hb, hopen⟩ := draft_bindFiles hd sys.2 (before ++ file :: after)
  obtain ⟨hb', -⟩ := draft_bindFiles hd sys.2
    (before ++ .around members members' { decl with body } :: after)
  have hsupported := below_withSys.supported.declaredDraft hd
    (indexed (before ++ file :: after))
  have hdistinct := hopen.distinct (opened_openedDraft sys.2 _ hd).1
  obtain ⟨found, hsettles, hbeside⟩ := exists_beside_declaredDraft members members' decl
    before.length body hd sys.2 (indexed before) later
  rw [← hindexed, ← hindexed] at hbeside
  rw [← hindexed] at hsettles
  obtain ⟨ρ, ids, hfunction, hfile, hfixes, hapart⟩ := hbeside.exists_apart hdistinct hsupported
    (fun f hf => hopen.mem (hopen.housed f hf)) hb hb'
  refine ⟨ρ, ids, found, hfunction, hfile, hfixes, ?_, hapart⟩
  have hrun := hsettles.run bodyPhase
    (declaredDraft sys.1 sys.2 (indexed (before ++ file :: after))).pending
  rw [← hb] at hrun
  exact hrun

end Parcel
