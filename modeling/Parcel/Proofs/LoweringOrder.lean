import Parcel.Proofs.Binding.Support
import Parcel.Proofs.Code.Relabeling
import Parcel.Proofs.Code.Renumbering
import Parcel.Proofs.Machine.Renamed

/-!
# The order of lowering

The functions of a program take their labels and hidden variables from the same counters. If they
are lowered in another order, they get others of these, and nothing else changes: neither the
listing with renumbered labels nor any run.

## Main results

* `Code.lowerIn_functions` — lowering in the order of binding is lowering.
* `Code.exists_lower_perm` — functions that are lowered in another order.
* `lowering_order_irrelevant` — lowered programs up to ids, their listings and their runs.
-/

namespace Parcel

open Code List

variable {ids : Ids} {ρ : Renaming}

namespace Code

variable {ids' m n ids₀ : Ids} {f : Function} {fs : List Function}

/-- Lowers the functions of a program in some order, each where it stands. -/
def Program.lowerIn (p : Program) (order : List Function) : Fresh Program := do
  let lows ← order.mapM Function.lower
  return { p with
    functions := p.functions.map fun f => (lows.find? (·.symbol.id = f.symbol.id)).getD f }

lemma lowerIn_run (p : Program) (order : List Function) (ids : Ids) :
    (p.lowerIn order).run ids =
      (⟨p.functions.map fun f => (((order.mapM Function.lower).run ids).1.find?
        (·.symbol.id = f.symbol.id)).getD f, p.globals⟩, ((order.mapM Function.lower).run ids).2) :=
  rfl

/-- The functions without ids from the counters on: they stay as they are whatever becomes of
these. -/
def SupportedAll (ids : Ids) (fs : List Function) : Prop :=
  ∀ σ : Renaming, σ.Fixes ids → σ.function = .refl _ → σ.file = .refl _ → ∀ f ∈ fs, f.rename σ = f

/-- The renaming for two functions that change places. -/
def exchangeIds (ids n m : Ids) : Renaming :=
  { ids.exchange n m with function := .refl _ }

/-- A renaming of labels and hidden variables that are taken between two states of the counters. -/
structure Relabels (ρ : Renaming) (ids ids' : Ids) : Prop where
  function : ρ.function = .refl _
  file : ρ.file = .refl _
  fixes : ρ.Fixes ids
  keeps : ρ.Keeps ids'

lemma relabels_refl (ids ids' : Ids) : Relabels .refl ids ids' :=
  ⟨rfl, rfl, Renaming.fixes_refl ids, Renaming.keeps_refl ids'⟩

lemma Relabels.trans {σ : Renaming} (h : Relabels ρ ids ids') (h' : Relabels σ ids ids') :
    Relabels (ρ.trans σ) ids ids' where
  function := by rw [Renaming.trans, h.function, h'.function]; rfl
  file := by rw [Renaming.trans, h.file, h'.file]; rfl
  fixes := h.fixes.trans h'.fixes
  keeps := h.keeps.trans h'.keeps

lemma relabels_exchangeIds (ids n m : Ids) : Relabels (exchangeIds ids n m) ids (ids + n + m) where
  function := rfl
  file := rfl
  fixes := ⟨(ids.fixes_exchange n m).var, fun _ _ => rfl, (ids.fixes_exchange n m).label⟩
  keeps := ⟨(ids.keeps_exchange n m).var, fun _ _ => rfl, (ids.keeps_exchange n m).label⟩

lemma aligns_exchangeIds_first (ids : Ids) (m : Ids) (hn : n.nextFunction = 0) :
    (exchangeIds ids n m).Aligns n ids (ids + m) where
  var := (ids.aligns_exchange_first n m).var
  function _ hk := absurd hk (by rw [hn]; exact Nat.not_lt_zero _)
  label := (ids.aligns_exchange_first n m).label

lemma aligns_exchangeIds_second (ids n : Ids) (hm : m.nextFunction = 0) :
    (exchangeIds ids n m).Aligns m (ids + n) ids where
  var := (ids.aligns_exchange_second n m).var
  function _ hk := absurd hk (by rw [hm]; exact Nat.not_lt_zero _)
  label := (ids.aligns_exchange_second n m).label

/-! ### Functions in another order -/

lemma tracks_mapM_lower (ρ : Renaming) (fs : List Function) :
    Tracks ρ (List.map (Function.rename ρ)) (fs.mapM Function.lower)
      ((fs.map (Function.rename ρ)).mapM Function.lower) := by
  induction fs with
  | nil => exact tracks_pure _ []
  | cons f fs ih =>
    rw [map_cons, mapM_cons, mapM_cons]
    exact (tracks_lower_function ρ f).bind fun low => ih.bind fun lows =>
      tracks_pure (List.map (Function.rename ρ)) (low :: lows)

lemma map_symbol_mapM_lower (fs : List Function) (ids : Ids) :
    ((fs.mapM Function.lower).run ids).1.map (·.symbol) = fs.map (·.symbol) :=
  lowerFunctions_induct (Q := fun _ fs lows _ => lows.map (·.symbol) = fs.map (·.symbol))
    rfl (fun h => by rw [map_cons, map_cons, h, symbol_lower]) fs ids

lemma mapM_lower_cons (f : Function) (fs : List Function) (ids : Ids) :
    ((f :: fs).mapM Function.lower).run ids =
      ((f.lower.run ids).1 :: ((fs.mapM Function.lower).run (f.lower.run ids).2).1,
        ((fs.mapM Function.lower).run (f.lower.run ids).2).2) := by
  rw [mapM_cons]
  rfl

lemma SupportedAll.map_rename (h : SupportedAll ids fs) (hfunction : ρ.function = .refl _)
    (hfile : ρ.file = .refl _) (hfixes : ρ.Fixes ids) : fs.map (·.rename ρ) = fs :=
  map_eq_self_iff.mpr (h ρ hfixes hfunction hfile)

lemma SupportedAll.later {fs' : List Function} (h : SupportedAll ids fs) (hreach : ids.Reach ids')
    (hsubset : fs' ⊆ fs) : SupportedAll ids' fs' :=
  fun σ hσ hfunction hfile f hf => h σ (hσ.of_reach hreach) hfunction hfile f (hsubset hf)

/-- What is lowered has no ids from the counters after it on. -/
lemma SupportedAll.lower (h : SupportedAll ids fs) :
    SupportedAll ((fs.mapM Function.lower).run ids).2 ((fs.mapM Function.lower).run ids).1 := by
  intro σ hσ hfunction hfile
  obtain ⟨n, -, hids, hrun⟩ := tracks_mapM_lower σ fs ids
  rw [hids] at hσ
  have hself := hrun ids hσ.aligns
  rw [h.map_rename hfunction hfile hσ.before] at hself
  exact map_eq_self_iff.mp (congrArg Prod.fst hself).symm

/-- Code without later ids is lowered in the same way, and a renaming of earlier ids stays out of
it. -/
lemma SupportedAll.lower_rename (h : SupportedAll ids₀ fs) (hρ : Relabels ρ ids₀ ids) :
    ((fs.mapM Function.lower).run ids).1.map (·.rename ρ) = ((fs.mapM Function.lower).run ids).1 := by
  obtain ⟨n, -, -, hrun⟩ := tracks_mapM_lower ρ fs ids
  have hself := hrun ids hρ.keeps.aligns
  rw [h.map_rename hρ.function hρ.file hρ.fixes] at hself
  exact (congrArg Prod.fst hself).symm

lemma ids_add_left_cancel (h : ids + n = ids + m) : n = m := by
  obtain ⟨vars, functions, labels⟩ := n
  obtain ⟨vars', functions', labels'⟩ := m
  obtain ⟨hvars, hfunctions, hlabels⟩ := Ids.mk.inj h
  obtain rfl : vars = vars' := Nat.add_left_cancel hvars
  obtain rfl : functions = functions' := Nat.add_left_cancel hfunctions
  obtain rfl : labels = labels' := Nat.add_left_cancel hlabels
  rfl

/-- A function without later ids is lowered from other counters to the same up to ids. -/
lemma SupportedAll.lower_aligned (h : SupportedAll ids₀ [f])
    (hids : (f.lower.run ids).2 = ids + n) (hfunction : ρ.function = .refl _)
    (hfile : ρ.file = .refl _) (hfixes : ρ.Fixes ids₀) (haligns : ρ.Aligns n ids ids') :
    f.lower.run ids' = ((f.lower.run ids).1.rename ρ, ids' + n) := by
  obtain ⟨n', -, hids', hrun⟩ := tracks_lower_function ρ f ids
  obtain rfl := ids_add_left_cancel (hids'.symm.trans hids)
  have hrenamed := hrun ids' haligns
  rwa [h ρ hfixes hfunction hfile f mem_cons_self] at hrenamed

/-- Two functions that follow one another change places. -/
lemma exists_lower_swap (f g : Function) (fs : List Function) (ids : Ids)
    (h : SupportedAll ids (f :: g :: fs)) :
    ∃ ρ, Relabels ρ ids (((f :: g :: fs).mapM Function.lower).run ids).2 ∧
      (((g :: f :: fs).mapM Function.lower).run ids).2 =
        (((f :: g :: fs).mapM Function.lower).run ids).2 ∧
      (((g :: f :: fs).mapM Function.lower).run ids).1.Perm
        ((((f :: g :: fs).mapM Function.lower).run ids).1.map (·.rename ρ)) := by
  obtain ⟨n, hn, hf, -⟩ := tracks_lower_function .refl f ids
  obtain ⟨m, hm, hg, -⟩ := tracks_lower_function .refl g (ids + n)
  obtain ⟨k, -, hfs, -⟩ := tracks_mapM_lower .refl fs (ids + n + m)
  have hρ := relabels_exchangeIds ids n m
  have hfirst := aligns_exchangeIds_first ids m hn
  have hsecond := aligns_exchangeIds_second ids n hm
  generalize exchangeIds ids n m = ρ at hρ hfirst hsecond
  -- each of the two is lowered after the other one as it is lowered before it, up to ids
  have hfρ : f.lower.run (ids + m) = ((f.lower.run ids).1.rename ρ, ids + m + n) :=
    (h.later (.refl ids) (by simp)).lower_aligned hf hρ.function hρ.file hρ.fixes hfirst
  have hgρ : g.lower.run ids = ((g.lower.run (ids + n)).1.rename ρ, ids + m) :=
    (h.later (.refl ids) (by simp)).lower_aligned hg hρ.function hρ.file hρ.fixes hsecond
  have hlater : SupportedAll ids fs := h.later (.refl ids) fun x hx =>
    mem_cons_of_mem _ (mem_cons_of_mem _ hx)
  have hrest := hlater.lower_rename hρ
  refine ⟨ρ, ?_, ?_, ?_⟩
  · rw [mapM_lower_cons, mapM_lower_cons, hf, hg, hfs]
    exact ⟨hρ.function, hρ.file, hρ.fixes, hρ.keeps.after⟩
  · rw [mapM_lower_cons, mapM_lower_cons, mapM_lower_cons, mapM_lower_cons, hf, hg, hgρ, hfρ,
      Ids.add_right_comm]
  · rw [mapM_lower_cons, mapM_lower_cons, mapM_lower_cons, mapM_lower_cons, hf, hg, hgρ, hfρ,
      Ids.add_right_comm, map_cons, map_cons, hrest]
    exact .swap _ _ _

/-- **Functions that are lowered in another order** are the same up to order and ids. -/
theorem exists_lower_perm {fs fs' : List Function} (hperm : fs.Perm fs') (ids : Ids)
    (h : SupportedAll ids fs) :
    ∃ ρ, Relabels ρ ids ((fs.mapM Function.lower).run ids).2 ∧
      ((fs'.mapM Function.lower).run ids).2 = ((fs.mapM Function.lower).run ids).2 ∧
      ((fs'.mapM Function.lower).run ids).1.Perm
        (((fs.mapM Function.lower).run ids).1.map (·.rename ρ)) := by
  induction hperm generalizing ids with
  | nil => exact ⟨.refl, relabels_refl _ _, rfl, .nil⟩
  | @cons f fs fs' _ ih =>
    have hreach := reach_lower_function f ids
    obtain ⟨ρ, hρ, hids, hlows⟩ := ih (f.lower.run ids).2
      (h.later hreach (subset_cons_self f fs))
    rw [mapM_lower_cons, mapM_lower_cons]
    refine ⟨ρ, ⟨hρ.function, hρ.file, hρ.fixes.of_reach hreach, hρ.keeps⟩, hids, ?_⟩
    have hfirst : (f.lower.run ids).1.rename ρ = (f.lower.run ids).1 := by
      have hlow := (h.later (.refl ids) (cons_subset_cons f (nil_subset fs))).lower
      exact hlow ρ hρ.fixes hρ.function hρ.file _ mem_cons_self
    rw [map_cons, hfirst]
    exact hlows.cons _
  | swap f g fs => exact exists_lower_swap g f fs ids h
  | trans hperm₁ _ ih₁ ih₂ =>
    obtain ⟨ρ, hρ, hids, hlows⟩ := ih₁ ids h
    obtain ⟨σ, hσ, hids', hlows'⟩ := ih₂ ids (h.later (.refl ids) hperm₁.symm.subset)
    rw [hids] at hσ hids'
    refine ⟨ρ.trans σ, hρ.trans hσ, hids', hlows'.trans ?_⟩
    rw [map_rename_trans ρ σ (Function.rename_trans ρ σ)]
    exact hlows.map _

/-! ### Programs -/

section Placed

variable {fs : List Function} (hnodup : (fs.map (·.symbol.id)).Nodup)
include hnodup

lemma nodup_mapM_lower (ids : Ids) :
    (((fs.mapM Function.lower).run ids).1.map (·.symbol.id)).Nodup := by
  have hsymbols := congrArg (List.map FunctionSymbol.id) (map_symbol_mapM_lower fs ids)
  rw [map_map, map_map] at hsymbols
  exact hsymbols ▸ hnodup

/-- Every function is found among those that are lowered. -/
lemma exists_lowered (ids : Ids) (hf : f ∈ fs) :
    ∃ ids', ((fs.mapM Function.lower).run ids).1.find? (·.symbol.id = f.symbol.id) =
      some (f.lower.run ids').1 := by
  have hfound : fs.find? (·.symbol.id = f.symbol.id) = some f :=
    (find?_key_eq_some_iff hnodup).mpr ⟨hf, rfl⟩
  rcases function?_lower ⟨fs, []⟩ ids f.symbol.id with ⟨hnone, -⟩ | ⟨g, ids', hg, -, hlow⟩
  · exact absurd (hnone.symm.trans hfound) (by simp)
  · obtain rfl : g = f := Option.some.inj (hg.symm.trans hfound)
    exact ⟨ids', hlow⟩

/-- **Lowering in the order of binding** is lowering. -/
theorem lowerIn_functions (globals : List GlobalGroup) (ids : Ids) :
    (Program.lowerIn ⟨fs, globals⟩ fs).run ids = (Program.lower ⟨fs, globals⟩).run ids := by
  have hlows := nodup_mapM_lower hnodup ids
  have hsymbols := map_symbol_mapM_lower fs ids
  suffices hplaced : fs.map (fun f => (((fs.mapM Function.lower).run ids).1.find?
      (·.symbol.id = f.symbol.id)).getD f) = ((fs.mapM Function.lower).run ids).1 from
    congrArg (fun functions => (Program.mk functions globals, ((fs.mapM Function.lower).run ids).2))
      hplaced
  generalize ((fs.mapM Function.lower).run ids).1 = lows at hlows hsymbols ⊢
  have hpairs : ∀ fs lows' : List Function, lows'.map (·.symbol) = fs.map (·.symbol) →
      lows' ⊆ lows →
      fs.map (fun f => (lows.find? (·.symbol.id = f.symbol.id)).getD f) = lows' := by
    intro fs
    induction fs with
    | nil => exact fun lows' h _ => (map_eq_nil_iff.mp h).symm
    | cons f fs ih =>
      intro lows' h hsubset
      obtain ⟨low, rest, rfl, hlow, hrest⟩ := map_eq_cons_iff.mp h
      have hfound := (find?_key_eq_some_iff hlows).mpr
        ⟨hsubset mem_cons_self, congrArg FunctionSymbol.id hlow⟩
      rw [map_cons, hfound, ih rest hrest fun x hx => hsubset (mem_cons_of_mem _ hx)]
      rfl
  exact hpairs fs lows hsymbols (List.Subset.refl _)

end Placed

section Orders

variable {p : Program} (hnodup : (p.functions.map (·.symbol.id)).Nodup) {order order' : List Function}
  (horder : order.Perm p.functions)
include hnodup horder

/-- Every function of a program that is lowered in some order is lowered. -/
lemma exists_of_mem_lowerIn (ids : Ids) {g : Function}
    (hg : g ∈ ((p.lowerIn order).run ids).1.functions) :
    ∃ f ∈ p.functions, ∃ ids', g = (f.lower.run ids').1 := by
  rw [lowerIn_run] at hg
  obtain ⟨f, hf, rfl⟩ := mem_map.mp hg
  obtain ⟨ids', hlow⟩ := exists_lowered ((horder.map _).nodup_iff.mpr hnodup) ids
    (horder.mem_iff.mpr hf)
  exact ⟨f, hf, ids', by rw [hlow]; rfl⟩

/-- **Programs that are lowered in another order** are the same up to ids. -/
theorem exists_lowerIn_perm (horder' : order'.Perm p.functions) (h : SupportedAll ids p.functions) :
    ∃ ρ, Relabels ρ ids ((p.lowerIn order).run ids).2 ∧
      ((p.lowerIn order').run ids).2 = ((p.lowerIn order).run ids).2 ∧
      ((p.lowerIn order').run ids).1.functions =
        ((p.lowerIn order).run ids).1.functions.map (·.rename ρ) := by
  have hids := (horder.map (·.symbol.id)).nodup_iff.mpr hnodup
  obtain ⟨ρ, hρ, hcounters, hlows⟩ := exists_lower_perm (horder.trans horder'.symm) ids
    (h.later (.refl ids) horder.subset)
  refine ⟨ρ, hρ, hcounters, ?_⟩
  have hnodup' := nodup_mapM_lower ((horder'.map (·.symbol.id)).nodup_iff.mpr hnodup) ids
  rw [lowerIn_run, lowerIn_run, map_map]
  refine map_congr_left fun f hf => ?_
  obtain ⟨ids', hlow⟩ := exists_lowered hids ids (horder.mem_iff.mpr hf)
  have hmem := mem_of_find?_eq_some hlow
  have hlow' : ((order'.mapM Function.lower).run ids).1.find? (·.symbol.id = f.symbol.id) =
      some ((f.lower.run ids').1.rename ρ) := by
    refine (find?_key_eq_some_iff hnodup').mpr ⟨hlows.mem_iff.mpr (mem_map_of_mem hmem), ?_⟩
    show FunctionId.mk (ρ.function _) = _
    rw [hρ.function, symbol_lower]
    rfl
  rw [Function.comp_apply, hlow, hlow']
  rfl

end Orders

end Code

/-! ### Runs -/

lemma codeOf_rename {p p' : Program} (hfunction : ρ.function = .refl _) (hfile : ρ.file = .refl _)
    (hp : p'.functions = p.functions.map (·.rename ρ)) (f : FunctionSymbol) :
    codeOf p' (f.rename ρ) =
      (codeOf p f).map fun found => (found.1, found.2.map (·.rename ρ)) := by
  have hid : ∀ g : FunctionSymbol, (g.rename ρ).id = g.id := by
    intro g
    rw [FunctionSymbol.rename, hfunction]
    rfl
  have hfound : p'.function? (f.rename ρ).id = (p.function? f.id).map (·.rename ρ) := by
    rw [hid, Program.function?, hp, find?_map, Program.function?]
    congr 2
    funext g
    show decide ((g.symbol.rename ρ).id = f.id) = _
    rw [hid]
  unfold codeOf
  rw [hfound]
  cases p.function? f.id with
  | none => rfl
  | some g =>
    obtain ⟨symbol, file, body⟩ := g
    cases body with
    | structured => rfl
    | lowered =>
      have hkept : file.map ρ.file = file := by
        rw [hfile]
        cases file <;> rfl
      simp only [Option.map_some, Function.rename, Body.rename, Except.map, hkept]

lemma Catalog.Supported.function {c : Catalog} (h : c.Supported ids) (hρ : ρ.Fixes ids)
    {f : FunctionSymbol} (hf : c.HasFunction f) : f.rename ρ = f := by
  obtain ⟨p, hp, hf⟩ := hf
  have hpackage := map_eq_self_iff.mp (congrArg Catalog.packages (h ρ hρ)) p hp
  exact map_eq_self_iff.mp (congrArg Package.functions hpackage) f hf

/-- **The order of lowering does not matter.** Whatever a session has bound before, the functions of
the next program may be lowered in any two orders, one of which may be that of `Program.lower`. The
lowered programs are the same but for the ids of labels and hidden variables that lowering takes
from the counters, so that they have the same listing with renumbered labels; and every run of a
function has the same outcome, with the same heap, output and faults from which it recovers. -/
theorem lowering_order_irrelevant {before : Catalog} {bound : Program} {lowered : Bool} {s : Session}
    (hs : Session.Reached before bound lowered s) (files : List Syntax.Program)
    {order order' : List Function}
    (horder : order.Perm (bindFiles s.catalog s.ids files).program.functions)
    (horder' : order'.Perm (bindFiles s.catalog s.ids files).program.functions) :
    let build := bindFiles s.catalog s.ids files
    let low := (build.program.lowerIn order).run build.ids
    let low' := (build.program.lowerIn order').run build.ids
    (build.program.lowerIn build.program.functions).run build.ids =
        build.program.lower.run build.ids ∧
      ∃ ρ : Renaming, Relabels ρ build.ids low.2 ∧ low'.2 = low.2 ∧
        low'.1.globals = low.1.globals ∧ low'.1.functions = low.1.functions.map (·.rename ρ) ∧
        low'.1.renumbered.listing = low.1.renumbered.listing ∧
        ∀ (known : Catalog) (mode : Mode) (fuel : Nat) (entry : FunctionSymbol) (sink : Sink),
          build.catalog.HasFunction entry →
            let run := runFor ⟨low.1, known, mode⟩ fuel entry sink
            let run' := runFor ⟨low'.1, known, mode⟩ fuel entry sink
            run'.1 = run.1 ∧ run'.2.heap = run.2.heap ∧ run'.2.recovered = run.2.recovered ∧
              run'.2.sink = run.2.sink := by
  intro build low low'
  have hshape : build.Shaped s.catalog s.ids [] := shaped_bindFiles s.catalog s.ids files
  have hsupported : build.Supported := supported_bindFiles hs.supported.1 hs.supported.2 files
  have hnodup := hshape.nodup_functions
  obtain ⟨ρ, hρ, hids, hfunctions⟩ := exists_lowerIn_perm hnodup horder horder'
    fun σ hσ _ hfile f hf => hsupported.functions σ hσ hfile f hf
  have hrunnable : ∀ f ∈ low.1.functions, f.body.Runnable := by
    intro g hg
    obtain ⟨f, hf, ids', rfl⟩ := exists_of_mem_lowerIn hnodup horder build.ids hg
    obtain ⟨body, hbody, hstructured, -⟩ := hshape.bodies f hf
    exact runnable_lower hbody hstructured ids'
  refine ⟨lowerIn_functions hnodup _ _, ρ, hρ, hids, rfl, hfunctions, ?_, ?_⟩
  · refine listing_renumbered_rename ρ hfunctions fun f hf => ?_
    obtain ⟨code, hcode⟩ := (hrunnable f hf).isLowered
    have hstmts := (hrunnable f hf).stmts
    rw [hcode] at hstmts
    exact ⟨code, hcode, fun stmt hstmt => hstmts stmt (Array.mem_toList_iff.mpr hstmt)⟩
  · intro known mode fuel entry sink hentry
    have hglobals : low'.1.globals = low.1.globals.map (·.rename ρ) :=
      (hsupported.globals ρ hρ.fixes hρ.file).symm
    have hmachines := reruns_congruence known mode (codeOf_rename hρ.function hρ.file hfunctions)
      hglobals
    have hruns := runFor_rename hmachines fuel entry sink fun label place hfailed => ?_
    · rwa [hsupported.catalog.function hρ.fixes hentry] at hruns
    · have hjumps := honoured_jumps (m := ⟨low.1, known, mode⟩) hrunnable fun group hgroup stmt
        hstmt => (hshape.declarations group hgroup stmt hstmt).imp fun v h => h.imp fun _ h => h.1
      have hcause := hjumps.allowed_of_runFor trivial hfailed
      cases hcause

theorem lowering_order_of_nestedLoops :
    let s := Session.new {}
    let build := bindFiles s.catalog s.ids [nestedLoops]
    let low := (build.program.lowerIn build.program.functions).run build.ids
    let low' := (build.program.lowerIn build.program.functions.reverse).run build.ids
    build.program.functions.length = 2 ∧ low'.2 = low.2 ∧
      low'.1.renumbered.listing = low.1.renumbered.listing := by
  have hreached := Session.Reached.new {}
  have hlength : (bindFiles (Session.new {}).catalog (Session.new {}).ids
      [nestedLoops]).program.functions.length = 2 := by decide +kernel
  generalize Session.new {} = s at hreached hlength ⊢
  generalize [nestedLoops] = files at hlength ⊢
  obtain ⟨-, ρ, -, hids, -, -, hlisting, -⟩ := lowering_order_irrelevant hreached files
    (.refl _) (reverse_perm _)
  exact ⟨hlength, hids, hlisting⟩

end Parcel
