import Parcel.Proofs.Machine.Counting
import Parcel.Proofs.Preservation

/-!
# Counting loops run their range

Whatever files are bound: the code of a loop that counts stands where nothing else changes its
iterator and its bound, since both are variables of their own. A call that comes to the code
therefore executes the body once for each number from one bound toward the other, in order, up to
the extremes of type `int`.

## Main results

* `int_iterators_bindStmt` — iterators have type `int`.
* `Build.Shaped.exists_visible` — what a statement somewhere in a body sees.
* `Build.Shaped.sound` — the code of a loop is sound.
* `counting_loops_run_their_range`.
-/

namespace Parcel

open Code List

variable {part : Stmt} {loop : Counted}

/-! ### Iterators -/

/-- The iterators of all loops that count have type `int`. -/
def Code.Stmt.CountsInts (stmts : List Stmt) : Prop :=
  ∀ part ∈ stmts, ∀ loop, Counted.ofStmt? part = some loop → loop.iterator.type = .int

/-- **Iterators have type `int`.** -/
theorem int_iterators_bindFiles (catalog : Catalog) (ids : Ids) (files : List Syntax.Program) :
    ∀ f ∈ (bindFiles catalog ids files).program.functions, Stmt.CountsInts f.body.stmts := by
  refine forall_bodies_bindFiles (P := fun body => Stmt.CountsInts body.stmts) ?_ catalog ids files
  intro b pending part hpart loop hloop
  have hbound := ownBound_bodyOf b pending part hpart
  cases part with
  | fromTo | loop =>
    obtain rfl := Option.some.inj hloop
    exact hbound.ints rfl _ mem_cons_self
  | _ => cases hloop

/-! ### Loops in the bodies of a program -/

namespace Build.Shaped

variable {catalog : Catalog} {ids : Ids} {b : Build} (h : b.Shaped catalog ids [])
  {f : Function} (hf : f ∈ b.program.functions)
include h hf

/-- No variable is introduced twice in a function. -/
lemma nodup_vars_function : (f.vars.map (·.id)).Nodup := by
  have hnodup := (taken_order h (.refl _)).nodup_vars
  rw [Program.vars, map_append, map_flatMap] at hnodup
  exact (nodup_flatMap.mp (nodup_append.mp hnodup).2.1).1 f hf

/-- No label is placed twice in a function that is lowered later. -/
lemma nodup_placed_lower {ids' : Ids} (hreach : b.ids.Reach ids') :
    (f.lower.run ids').1.body.placed.Nodup := by
  refine nodup_iff_count_le_one.mpr fun label => ?_
  have hsub : f.body.placed.Sublist b.program.placed :=
    sublist_flatten_of_mem (mem_map_of_mem hf)
  have hbefore := Nat.le_trans (hsub.count_le label) (h.taken.labels label)
  have hlabels := hreach.labels
  rw [count_placed_lower_function]
  unfold within at hbefore ⊢
  split at hbefore <;> split <;> omega

variable (hglobals : ∀ v, catalog.HasGlobal v → v.isGlobal = true)
include hglobals

/-- **What a statement somewhere in a body sees:** its own variables, and other ones, which are all
older than the counters. -/
theorem exists_visible {body : Stmt} (hbody : f.body = .structured body) (hpart : part ∈ body.parts) :
    ∃ visible, part.Scoped visible ∧ part.varIds.Nodup ∧
      (∀ v ∈ part.vars, v.id.index < b.ids.nextVar) ∧
      ∀ v ∈ visible, v.isGlobal = false → v.id.index < b.ids.nextVar ∧ v.id ∉ part.varIds := by
  obtain ⟨body', hbody', -, hscoped⟩ := h.bodies f hf
  obtain rfl := Body.structured.inj (hbody.symm.trans hbody')
  obtain ⟨outer, hpart_scoped, hsub⟩ := scoped_of_mem_parts body hscoped hpart
  have hvars : f.vars = f.symbol.params ++ body.vars := by
    rw [Function.vars, hbody]
    rfl
  have hfunction {v : Var} (hv : v ∈ f.vars) : v.id.index < b.ids.nextVar :=
    h.index_lt (mem_append_right _ (mem_flatMap.mpr ⟨f, hf, hv⟩))
  -- parameters, variables around the statement and its own ones are all different
  have hnodup : ((f.symbol.params ++ outer).map (·.id) ++ part.varIds).Nodup := by
    obtain ⟨vars, hperm, hvars_sub⟩ := id hsub
    have hnodup := h.nodup_vars_function hf
    rw [hvars] at hnodup
    rw [Stmt.varIds, ← map_append, append_assoc]
    exact ((hperm.append_left _).map _).nodup_iff.mp
      (hnodup.sublist ((hvars_sub.append_left _).map _))
  obtain ⟨-, hown, hdisjoint⟩ := nodup_append.mp hnodup
  have hbefore {v : Var} (hv : v ∈ f.symbol.params ++ outer) :
      v.id.index < b.ids.nextVar ∧ v.id ∉ part.varIds := by
    refine ⟨hfunction ?_, fun hmem => hdisjoint _ (mem_map_of_mem hv) _ hmem rfl⟩
    rw [hvars]
    refine mem_append.mpr ((mem_append.mp hv).imp_right fun hv => ?_)
    exact hsub.subset (mem_append_left _ hv)
  refine ⟨_, hpart_scoped, hown, fun v hv => hfunction ?_, fun v hv hlocal => ?_⟩
  · rw [hvars]
    exact mem_append_right _ (hsub.subset (mem_append_right _ hv))
  · rcases mem_append.mp hv with hv | hv
    · exact hbefore (mem_append_right _ hv)
    · rcases mem_append.mp hv with hv | hv
      · exact hbefore (mem_append_left _ hv)
      · rw [h.isGlobal hglobals (Catalog.hasGlobal_of_globalsOf hv)] at hlocal
        cases hlocal

end Build.Shaped

/-- A loop that counts introduces its iterator besides what its body introduces, and the body sees
it at most. -/
lemma Counted.scoped_of_ofStmt? (h : ofStmt? part = some loop) {visible : List Var}
    (hscoped : part.Scoped visible) :
    loop.iterator ∈ part.ownVars ∧ part.vars = loop.iterator :: loop.body.vars ∧
      loop.lower.Within visible ∧ loop.body.Scoped (loop.iterator :: visible) := by
  cases part with
  | fromTo =>
    obtain rfl := Option.some.inj h
    exact ⟨mem_singleton.mpr rfl, vars_fromTo .., hscoped.1, hscoped.2.2⟩
  | loop =>
    obtain rfl := Option.some.inj h
    exact ⟨mem_singleton.mpr rfl, vars_loop .., fun _ ha => absurd ha not_mem_nil,
      hscoped.2.mono (subset_cons_self _ _)⟩
  | _ => cases h

lemma Counted.structured_of_ofStmt? (h : ofStmt? part = some loop) {loops : Option LoopLabels}
    (hpart : Structured loops part) : Structured (some loop.labels) loop.body := by
  cases hpart with
  | fromTo _ _ _ hbody | loop _ _ hbody =>
    obtain rfl := Option.some.inj h
    exact hbody
  | _ => cases h

/-- The code of a loop stands in other code, lowered with counters that come later. -/
def LoopSite.StandsIn (site : LoopSite) (ids : Ids) (code : Array Stmt) : Prop :=
  ids.Reach site.ids ∧ StandsAt code site.entry site.code

namespace Build.Shaped

variable {catalog : Catalog} {ids : Ids} {b : Build} (h : b.Shaped catalog ids [])
  (hglobals : ∀ v, catalog.HasGlobal v → v.isGlobal = true) {f : Function}
  (hf : f ∈ b.program.functions) (hlocals : ∀ v ∈ f.body.introduced, v.isGlobal = false)
include h hglobals hf hlocals

lemma write_notMem_of_loop {iterator : Var} {count : Expr} {body : Stmt} {labels : LoopLabels}
    (hpart : .loop iterator count body labels ∈ f.body.stmts) :
    Access.write iterator ∉ body.accesses := by
  obtain ⟨whole, hwhole, -⟩ := h.bodies f hf
  have hlocal := hlocals iterator (mem_flatMap.mpr ⟨_, hpart, mem_singleton.mpr rfl⟩)
  rw [hwhole] at hpart
  obtain ⟨visible, hscoped, hnodup, -, hvisible⟩ := h.exists_visible hf hglobals hwhole hpart
  rw [Stmt.varIds, vars_loop, map_cons] at hnodup hvisible
  intro hwrite
  rcases var_mem_of_scoped hscoped.2 _ hwrite iterator rfl with hv | hv
  · exact (hvisible iterator hv hlocal).2 mem_cons_self
  · exact (nodup_cons.mp hnodup).1 (mem_map_of_mem hv)

/-- **The code of a loop is sound** wherever it stands, if its body does not assign its iterator. -/
theorem sound {ids' : Ids} (hints : Stmt.CountsInts f.body.stmts) (hreach : b.ids.Reach ids')
    {code : Array Stmt} (hcode : (f.lower.run ids').1.body = .lowered code)
    (hpart : part ∈ f.body.stmts) {site : LoopSite} (hloop : Counted.ofStmt? part = some site.loop)
    (hstands : site.StandsIn ids' code)
    (hassigned : Access.write site.loop.iterator ∉ site.loop.body.accesses) : site.Sound code := by
  obtain ⟨body, hbody, hstructured, -⟩ := h.bodies f hf
  have hplaced := h.nodup_placed_lower hf hreach
  rw [hcode] at hplaced
  have hparts : part ∈ body.parts := by
    rwa [hbody] at hpart
  obtain ⟨visible, hscoped, hnodup, hown, hvisible⟩ := h.exists_visible hf hglobals hbody hparts
  obtain ⟨-, loops, -, hpart_structured, -⟩ := infix_lower body hstructured hparts ids'
  obtain ⟨hiterator, hvars, hlower, hbody_scoped⟩ := Counted.scoped_of_ofStmt? hloop hscoped
  have hlocal := hlocals _ (mem_flatMap.mpr ⟨part, hpart, hiterator⟩)
  have hlater : b.ids.nextVar ≤ site.ids.nextVar := (hreach.trans hstands.1).vars
  rw [Stmt.varIds, hvars, map_cons] at hnodup
  obtain ⟨hnew, -⟩ := nodup_cons.mp hnodup
  rw [hvars] at hown
  refine LoopSite.sound_of_scoped hstands.2 hplaced (hints part hpart _ hloop) hlocal
    (Counted.structured_of_ofStmt? hloop hpart_structured) hlower hbody_scoped ?_ ?_ ?_
  · refine forall_mem_cons.mpr ⟨fun _ => ?_, fun v hv hlocal => ?_⟩
    · exact Nat.lt_of_lt_of_le (hown _ mem_cons_self) hlater
    · exact Nat.lt_of_lt_of_le (hvisible v hv hlocal).1 hlater
  · intro v hv
    refine ⟨fun heq => hnew (heq ▸ mem_map_of_mem hv), ?_⟩
    exact Nat.lt_of_lt_of_le (hown v (mem_cons_of_mem _ hv)) hlater
  · rintro ⟨v, hid, hv_local, hwrite⟩
    rcases var_mem_of_scoped hbody_scoped _ hwrite v rfl with hv | hv
    · rcases mem_cons.mp hv with rfl | hv
      · exact hassigned hwrite
      · refine (hvisible v hv hv_local).2 ?_
        rw [Stmt.varIds, hvars, hid]
        exact mem_cons_self
    · exact hnew (hid ▸ mem_map_of_mem hv)

end Build.Shaped

/-- **Counting loops run their range.** For all files that are bound on top of a catalog in which
packages have only variables of packages, in the lowered code of every function: a loop from one
bound to another has its code. Wherever that stands, a call that comes to it with bounds that
evaluate to any two numbers of type `int` leaves it again, as long as the body does not assign the
iterator and each execution of it ends normally or by `continue`. The upper bound is evaluated once
and before the lower one, the body is executed once for each number from the lower bound toward the
upper one, in this order and without overflow, and afterwards the frame has neither the iterator nor
the hidden bound. In the same way a loop with a count executes its body that often, whatever names
the body uses. -/
theorem counting_loops_run_their_range (catalog : Catalog) (ids : Ids) (files : List Syntax.Program)
    (hglobals : ∀ v, catalog.HasGlobal v → v.isGlobal = true) :
    let build := bindFiles catalog ids files
    ∀ f ∈ build.program.functions, ∀ ids', build.ids.Reach ids' → ∃ code,
      (f.lower.run ids').1.body = .lowered code ∧
      (∀ iterator lower upper body labels,
        Stmt.fromTo iterator lower upper body labels ∈ f.body.stmts →
        Access.write iterator ∉ body.accesses →
        let loop : Counted := ⟨iterator, lower, upper, body, labels⟩
        (∃ site : LoopSite, site.loop = loop ∧ site.StandsIn ids' code) ∧
        ∀ site : LoopSite, site.loop = loop → site.StandsIn ids' code →
          ∀ m s a b, Visits m f.symbol code s → s.cursor? = some site.entry →
            a.width = .int → b.width = .int → site.Bounded m s a b → site.BodyEnds m code s →
            ∃ trace t, site.RunsRange m code a.val b.val s trace t) ∧
      ∀ iterator count body labels, Stmt.loop iterator count body labels ∈ f.body.stmts →
        let loop : Counted := ⟨iterator, .int 0 count.span, count, body, labels⟩
        (∃ site : LoopSite, site.loop = loop ∧ site.StandsIn ids' code) ∧
        ∀ site : LoopSite, site.loop = loop → site.StandsIn ids' code →
          ∀ m s n s₁, Visits m f.symbol code s → s.cursor? = some site.entry →
            n.width = .int → Evaluates m count s (.integer n) s₁ → site.BodyEnds m code s →
            ∃ trace t, site.RunsRange m code 0 n.val s trace t ∧
              (visitsAt site.start trace).length = n.val.natAbs := by
  intro build f hf ids' hreach
  have shaped : build.Shaped catalog ids [] := shaped_bindFiles catalog ids files
  have hlocals := locals_bindFiles catalog ids files f hf
  have hints := int_iterators_bindFiles catalog ids files f hf
  obtain ⟨whole, hwhole, hstructured, -⟩ := shaped.bodies f hf
  have hcode : (f.lower.run ids').1.body = .lowered (flatten (whole.lower.run ids').1).toArray := by
    rw [lower_structured hwhole]
  have hexists {part : Stmt} {loop : Counted} (hpart : part ∈ f.body.stmts)
      (hloop : Counted.ofStmt? part = some loop) : ∃ site : LoopSite, site.loop = loop ∧
        site.StandsIn ids' (flatten (whole.lower.run ids').1).toArray := by
    rw [hwhole] at hpart
    exact LoopSite.exists_standsAt hstructured hpart hloop ids'
  refine ⟨_, hcode, ?_, ?_⟩
  · intro iterator lower upper body labels hpart hassigned loop
    refine ⟨hexists hpart rfl, ?_⟩
    rintro site hsite hstands m s a b hvisits hcursor ha hb hbounded hends
    obtain ⟨frame, tail, hframes, hruns⟩ := hvisits.runs
    have hsound := shaped.sound hglobals hf hlocals hints hreach hcode hpart
      (congrArg some hsite.symm) hstands (hsite ▸ hassigned)
    exact hsound.runsRange hframes hruns hcursor ha hb hbounded hends
  · intro iterator count body labels hpart loop
    refine ⟨hexists hpart rfl, ?_⟩
    rintro site hsite hstands m s n s₁ hvisits hcursor hn hcount hends
    obtain ⟨frame, tail, hframes, hruns⟩ := hvisits.runs
    have hassigned := shaped.write_notMem_of_loop hglobals hf hlocals hpart
    have hsound := shaped.sound hglobals hf hlocals hints hreach hcode hpart
      (congrArg some hsite.symm) hstands (hsite ▸ hassigned)
    have hbounded : site.Bounded m s (Word.wrap .int 0) n := by
      rw [LoopSite.Bounded, hsite]
      exact ⟨s₁, _, hcount, 0, fun _ _ => rfl⟩
    obtain ⟨trace, t, hrange⟩ := hsound.runsRange hframes hruns hcursor rfl hn hbounded hends
    exact ⟨trace, t, hrange, hrange.count.trans (congrArg Int.natAbs (Int.sub_zero n.val))⟩

/-- A file with a function whose loop goes from one parameter to another and sets a third one. -/
def sweeping : Syntax.Program :=
  let here : Span := ⟨0, 0⟩
  let name (text : String) : Syntax.Expr := .name text here
  let param (text type : String) : Syntax.Param := ⟨⟨text, here⟩, .mk type [] here⟩
  ⟨[.function ⟨⟨"sweep", here⟩, [param "low" "int", param "high" "int", param "swept" "bool"], none,
    .fromTo ⟨"i", here⟩ (name "low") (name "high")
      (.expr (.assign (name "swept") (.literal (.bool true) here) here)) here, here⟩]⟩

/-- Whether a function has such a body. -/
def Code.Function.sweeps (f : Function) (ids : Ids) : Bool :=
  match f.body with
  | .structured (.fromTo iterator (.name low _) (.name high _)
      (.expr (.assign (.name swept _) (.literal (.bool true) _) _)) _) =>
    decide (f.symbol.params = [low, high, swept] ∧ high.id ≠ low.id ∧ swept.id ∉ [low.id, high.id] ∧
      swept ≠ iterator ∧ low.id.index < ids.nextVar ∧ low.isGlobal = false ∧ high.isGlobal = false)
  | _ => false

/-- A local variable can be set wherever a call is. -/
lemma evaluates_assign_true {m : Machine} {t : State} {p : Nat} (hcursor : t.cursor? = some p)
    (v : Var) (span span₁ span₂ : Span) : ∃ value u,
      Evaluates m (.assign (.name v span) (.literal (.bool true) span₁) span₂) t value u := by
  obtain ⟨frame, tail, hframes, -, -⟩ := exists_of_cursor? hcursor
  have hvalue : (pure (Value.bool true) : Exec Value) t = .ok (.bool true) t := rfl
  have hstore := storeVar_holds (holds_of_frames hframes v) (.bool true)
  refine ⟨.bool true, t.assign v (.bool true), 0, fun k _ => placing_ok ?_⟩
  exact (exec_bind_ok hvalue _).trans (exec_bind_ok hstore _)

/-- With all numbers of type `int` as its range, the loop executes its body 4294967295 times. -/
theorem sweeping_runs_its_range :
    let build := bindFiles .empty {} [sweeping]
    build.errors = #[] ∧ ∃ f ∈ build.program.functions, ∃ code, ∃ site : LoopSite, ∃ s trace t,
      (f.lower.run build.ids).1.body = .lowered code ∧
      Visits ⟨(build.program.lower.run build.ids).1, build.catalog, {}⟩ f.symbol code s ∧
      site.RunsRange ⟨(build.program.lower.run build.ids).1, build.catalog, {}⟩ code (-2147483648)
        2147483647 s trace t ∧ (visitsAt site.start trace).length = 4294967295 := by
  have hempty : ∀ v, Catalog.empty.HasGlobal v → v.isGlobal = true := by
    rintro v ⟨package, hpackage, -⟩
    cases hpackage
  have hsweeps : let build := bindFiles .empty {} [sweeping]
      build.errors.size = 0 ∧ ∃ f ∈ build.program.functions, f.sweeps build.ids = true := by
    decide +kernel
  have hall := counting_loops_run_their_range .empty {} [sweeping] hempty
  generalize bindFiles .empty {} [sweeping] = build at hsweeps hall ⊢
  obtain ⟨haccepted, f, hf, hsweeps⟩ := hsweeps
  obtain ⟨code, hcode, hloops, -⟩ := hall f hf build.ids (.refl _)
  unfold Code.Function.sweeps at hsweeps
  split at hsweeps
  case h_2 => cases hsweeps
  case h_1 iterator low span₁ high span₂ swept span₃ span₄ span₅ labels hbody =>
    obtain ⟨hparams, hhigh, hthird, hswept, hindex, hlocal, hlocal'⟩ := of_decide_eq_true hsweeps
    rw [mem_cons, mem_singleton, not_or] at hthird
    let site : LoopSite := ⟨⟨iterator, .name low span₁, .name high span₂,
      .expr (.assign (.name swept span₃) (.literal (.bool true) span₄) span₅), labels⟩, 0, build.ids⟩
    have hassigned : Access.write iterator ∉ site.loop.body.accesses :=
      fun h => hswept (Access.write.inj (mem_singleton.mp h)).symm
    have hpart : .fromTo iterator site.loop.lower site.loop.upper site.loop.body labels ∈
        f.body.stmts := by
      rw [hbody]
      exact mem_cons_self
    have hruns := (hloops iterator _ _ _ labels hpart hassigned).2 site rfl
    have hwhole : code = site.code.toArray := by
      rw [lower_structured hbody] at hcode
      rw [← Body.lowered.inj hcode, flatten_eq_flat]
      rfl
    have hstands : StandsAt code site.entry site.code := by
      intro i _
      rw [hwhole, getElem?_toArray, Nat.zero_add]
    -- the call starts with the extremes as its arguments
    let a := Word.wrap .int (-2147483648)
    let b := Word.wrap .int 2147483647
    let s := (State.initial {}).onStack (·.push (Frame.enter f.symbol.qualifiedName none code
      (bindParams f.symbol.params [.integer a, .integer b, .bool false]) (.bool false)))
    have hbounded : site.Bounded ⟨(build.program.lower.run build.ids).1, build.catalog, {}⟩ s a b := by
      have hstore : bindParams f.symbol.params [.integer a, .integer b, .bool false] =
          Store.set (Store.set (Store.set [] low.id (.integer a)) high.id (.integer b)) swept.id
            (.bool false) := by
        rw [hparams]
        rfl
      refine LoopSite.bounded_of_names rfl rfl (rfl : s.stack.frames = [_]) hlocal hlocal' ?_ ?_
        fun heq => Nat.lt_irrefl _ (heq ▸ hindex)
      · refine (congrArg (·.get? low.id) hstore).trans ?_
        rw [Store.get?_set, if_neg hthird.1, Store.get?_set, if_neg hhigh, Store.get?_set, if_pos rfl]
      · refine (congrArg (·.get? high.id) hstore).trans ?_
        rw [Store.get?_set, if_neg hthird.2, Store.get?_set, if_pos rfl]
    have hends : site.BodyEnds ⟨(build.program.lower.run build.ids).1, build.catalog, {}⟩ code s :=
      LoopSite.bodyEnds_of_expr (LoopSite.lies_of_standsAt hstands trivial) rfl
        (fun t hcursor => evaluates_assign_true hcursor swept span₃ span₄ span₅) s
    obtain ⟨trace, t, hrange⟩ := hruns ⟨.refl _, hstands⟩ _ s a b (.enter _ _ _ _) rfl rfl rfl
      hbounded hends
    exact ⟨Array.eq_empty_of_size_eq_zero haccepted, f, hf, code, site, s, trace, t, hcode,
      .enter _ _ _ _, hrange, hrange.count⟩

end Parcel
