import Parcel.Proofs.Binding.Program

/-!
# Names and scopes

A name refers to the variable of that name in the innermost scope that has one: in a body first the
variables that are declared before it in the scopes around it, then the parameters, and then the
variables of the package. Binding leaves the scopes and the loops as they were but for the variable
that a statement declares itself, also where it reports errors.

## Main results

* `elaborates_bindBody` — bodies follow the judgement.
* `scopes_and_loops_kept` — what binding leaves as it is.
-/

namespace Parcel

open Code BindM List

lemma bindExpr_name_iff (b : Binder) (text : String) (span : Span) (v : Var) :
    ((bindExpr (.name text span)).run b).1 = .name v span ↔ b.scopes.Refers text v := by
  rw [← Scopes.lookup?_eq_some_iff, bindExpr, bindName, get_run_bind]
  dsimp only
  cases b.scopes.lookup? text with
  | some =>
    exact ⟨fun h => congrArg some (Expr.name.inj h).1, fun h => by rw [Option.some.inj h]; rfl⟩
  | none =>
    constructor
    · rintro ⟨⟩
    · rintro ⟨⟩

/-! ### Bodies -/

namespace Scopes

/-- Where a variable is declared, a name refers to what it refers to in the innermost scope with the
variable at its end. -/
lemma getD_declare? (inner : List Var) (outer : List (List Var)) (v : Var) :
    ∃ inner', ((mk (inner :: outer)).declare? v).getD ⟨inner :: outer⟩ = ⟨inner' :: outer⟩ ∧
      ∀ name (rest : List Var), (inner' ++ rest).find? (·.name = name) =
        (inner ++ v :: rest).find? (·.name = name) := by
  unfold declare?
  dsimp only
  split
  next hany =>
    refine ⟨inner, rfl, fun name rest => ?_⟩
    obtain ⟨w, hw, hname⟩ := any_eq_true.mp hany
    rw [find?_append, find?_append, find?_cons]
    split
    next heq =>
      -- a variable of this name comes before
      have hfound : (inner.find? (·.name = name)).isSome = true :=
        find?_isSome.mpr ⟨w, hw, by simp_all⟩
      obtain ⟨u, hu⟩ := Option.isSome_iff_exists.mp hfound
      rw [hu, Option.some_or, Option.some_or]
    · rfl
  · exact ⟨inner ++ [v], rfl, fun name rest => by rw [append_assoc, singleton_append]⟩

lemma exists_declareAll (vars inner : List Var) (outer : List (List Var)) :
    ∃ inner', (mk (inner :: outer)).declareAll vars = ⟨inner' :: outer⟩ ∧
      ∀ name, inner'.find? (·.name = name) = (inner ++ vars).find? (·.name = name) := by
  induction vars generalizing inner with
  | nil => exact ⟨inner, rfl, fun name => by rw [append_nil]⟩
  | cons v vars ih =>
    obtain ⟨inner₁, hdeclare, hfind₁⟩ := getD_declare? inner outer v
    obtain ⟨inner', hall, hfind⟩ := ih inner₁
    refine ⟨inner', ?_, fun name => (hfind name).trans (hfind₁ name vars)⟩
    rw [declareAll, foldl_cons, hdeclare]
    exact hall

/-- In the body of a function a name refers to the first parameter of that name, or else to the
variable of the package. -/
lemma refers_declareAll (globals params : List Var) (name : String) (v : Var) :
    ((ofGlobals globals).push.declareAll params).Refers name v ↔
      params.find? (·.name = name) = some v ∨
        (∀ w ∈ params, w.name ≠ name) ∧ globals.find? (·.name = name) = some v := by
  obtain ⟨inner, hall, hfind⟩ := exists_declareAll params [] [globals]
  have hnone : params.find? (·.name = name) = none ↔ ∀ w ∈ params, w.name ≠ name := by simp
  have hlookup : ((ofGlobals globals).push.declareAll params).lookup? name =
      (params.find? (·.name = name)).or (globals.find? (·.name = name)) := by
    rw [show (ofGlobals globals).push.declareAll params = _ from hall, lookup?, findSome?_cons,
      hfind name, nil_append]
    cases params.find? (·.name = name) with
    | some => rfl
    | none =>
      rw [Option.none_or, findSome?_cons]
      cases globals.find? (·.name = name) with
      | some | none => rfl
  rw [← lookup?_eq_some_iff, hlookup, Option.or_eq_some_iff, hnone]

end Scopes

/-- **The body of a function follows the judgement**, in a scope of its parameters, and leaves the
scopes and the loops. -/
theorem elaborates_bindBody (f : FunctionSymbol) (decl : Syntax.FunctionDecl) (b : Binder)
    (hb : b.scopes.chain ≠ []) :
    b.Walks b.loops (bindBody f decl) b.progress fun stmt p' => p'.scopes = b.scopes ∧
      ElaboratesStmt (b.scopes.push.declareAll ((f.params.zip decl.params).map (·.1))) b.loops.head?
        decl.body stmt := by
  obtain ⟨added, -, hadded⟩ := Scopes.declareAll_eq_extend b.scopes.push
    ((f.params.zip decl.params).map (·.1))
  have hchain : (b.scopes.push.declareAll ((f.params.zip decl.params).map (·.1))).chain ≠ [] := by
    rw [hadded]
    exact Scopes.chain_extend_ne (cons_ne_nil _ _) added
  refine (bindBody_walks (R := fun stmt p' =>
      p'.scopes = (b.scopes.push.declareAll ((f.params.zip decl.params).map (·.1))).extend stmt.own ∧
        ElaboratesStmt (b.scopes.push.declareAll ((f.params.zip decl.params).map (·.1)))
          b.loops.head? decl.body stmt) f decl b b.loops b.progress fun errs _ =>
    elaborates_bindStmt b decl.body b.loops _ hchain).mono fun stmt _ h => ?_
  obtain ⟨p, rfl, hscopes, hstmt⟩ := h
  rw [hadded, Scopes.extend_extend] at hscopes
  exact ⟨by rw [Progress.scopes_within, hscopes, Scopes.pop_extend_push hb], hstmt⟩

/-! ### The discipline -/

/-- **What binding leaves as it is, and what names and jumps refer to.** From every state of the
binder:
* A statement leaves the scopes as they are but for the innermost one, which gets variables with new
  names only. It leaves the loops, the function, the package and the file, the catalog and the
  program, and adds errors after those there are. It becomes what its syntax means in these scopes
  and the innermost one of these loops.
* An expression leaves everything but the errors, which come after those there are. It becomes what
  its syntax means; a name alone becomes the variable that it refers to, if there is one.
* The body of a function leaves the scopes and the loops, the function, the package and the file,
  and becomes what its syntax means in a scope of its parameters. Where only the variables of the
  package are in scope, a name in it refers to the first parameter of that name or else to the
  variable of the package. -/
theorem scopes_and_loops_kept (b : Binder) :
    (∀ (stx : Syntax.Stmt) (inner : List Var) (outer : List (List Var)),
      b.scopes.chain = inner :: outer →
      let bound := (bindStmt stx).run b
      (∃ added, bound.2.scopes.chain = (inner ++ added) :: outer ∧ (added.map (·.name)).Nodup ∧
        ∀ v ∈ added, v.name ∉ inner.map (·.name)) ∧
      (bound.2.loops = b.loops ∧ bound.2.function = b.function ∧ bound.2.package = b.package ∧
        bound.2.file = b.file ∧ bound.2.catalog = b.catalog ∧ bound.2.program = b.program) ∧
      b.errors.toList <+: bound.2.errors.toList ∧
        ElaboratesStmt b.scopes b.loops.head? stx bound.1) ∧
    (∀ stx : Syntax.Expr,
      let bound := (bindExpr stx).run b
      bound.2 = { b with errors := bound.2.errors } ∧
        b.errors.toList <+: bound.2.errors.toList ∧ Elaborates b.scopes stx bound.1 ∧
        ∀ text span v, stx = .name text span → (bound.1 = .name v span ↔ b.scopes.Refers text v)) ∧
    ∀ (f : FunctionSymbol) (decl : Syntax.FunctionDecl), b.scopes.chain ≠ [] →
      let bound := (bindBody f decl).run b
      let params := (f.params.zip decl.params).map (·.1)
      let scopes := b.scopes.push.declareAll params
      (bound.2.scopes = b.scopes ∧ bound.2.loops = b.loops ∧ bound.2.function = b.function ∧
        bound.2.package = b.package ∧ bound.2.file = b.file) ∧
      ElaboratesStmt scopes b.loops.head? decl.body bound.1 ∧
        ∀ globals, b.scopes = .ofGlobals globals → ∀ name v, scopes.Refers name v ↔
          params.find? (·.name = name) = some v ∨
            (∀ w ∈ params, w.name ≠ name) ∧ globals.find? (·.name = name) = some v := by
  refine ⟨fun stx inner outer hchain => ?_, fun stx => ?_, fun f decl hb => ?_⟩
  · intro bound
    have hb : b.scopes.chain ≠ [] := hchain ▸ cons_ne_nil _ _
    obtain ⟨hkept, hscopes, hstmt⟩ := (elaborates_bindStmt b stx b.loops b.progress hb).run
    obtain ⟨-, hprefix⟩ := (prefix_bindStmt b stx b.loops b.progress).run
    change bound.2 = b.along b.loops bound.2.progress at hkept
    change bound.2.scopes = b.scopes.extend bound.1.own at hscopes
    refine ⟨⟨bound.1.own, ?_, ?_, fun v hv hmem => ?_⟩, ?_, hprefix, hstmt⟩
    · rw [hscopes, Scopes.extend, hchain]
    · rw [Stmt.own]
      cases declared? bound.1 with
      | none => exact nodup_nil
      | some => exact pairwise_singleton _ _
    · obtain ⟨w, hw, hname⟩ := mem_map.mp hmem
      exact hstmt.not_holds v hv ⟨inner, outer, hchain, w, hw, hname⟩
    · rw [hkept]
      exact ⟨rfl, rfl, rfl, rfl, rfl, rfl⟩
  · intro bound
    obtain ⟨e, errs, hrun, hprefix⟩ := (reporting_bindExpr stx).run b b.errors
    have hbound : bound = (e, b.reported errs) := hrun
    refine ⟨by rw [hbound]; rfl, by rw [hbound]; exact hprefix, elaborates_bindExpr rfl, ?_⟩
    rintro text span v rfl
    exact bindExpr_name_iff b text span v
  · intro bound params scopes
    obtain ⟨hkept, hscopes, hbody⟩ := (elaborates_bindBody f decl b hb).run
    change bound.2 = b.along b.loops bound.2.progress at hkept
    refine ⟨⟨hscopes, ?_⟩, hbody, fun globals hglobals => ?_⟩
    · rw [hkept]
      exact ⟨rfl, rfl, rfl, rfl⟩
    · show ∀ name v, (b.scopes.push.declareAll params).Refers name v ↔ _
      rw [hglobals]
      exact Scopes.refers_declareAll globals params

/-- Hides `a` by a variable that starts with the value of the hidden one, leaves a loop in which it
is hidden once more, and declares it again where it is declared already. -/
def shadowing : Syntax.Stmt :=
  let here : Span := ⟨0, 0⟩
  let a : Syntax.Expr := .name "a" here
  let declare (value : Syntax.Expr) : Syntax.Stmt := .declaration ⟨⟨"a", here⟩, none, some value, here⟩
  .block [declare a, .whileLoop a (.block [declare (.unary .not a here), .breakLoop here] here) here,
    declare a, .expr (.assign a a here)] here

/-- In the body of a function of the package `main`, which has a variable `a`, inside of a loop. -/
def shadowingStart : Binder where
  catalog := .empty
  ids := {}
  program := .empty
  errors := #[]
  file := some 0
  package := "main"
  function := some ⟨⟨0⟩, "main", "main", [], .void, none, .interpreted⟩
  scopes := (Scopes.ofGlobals [⟨⟨0⟩, "a", .bool, .global⟩]).push
  loops := [⟨⟨8⟩, ⟨9⟩⟩]

theorem scopes_and_loops_kept_shadowing :
    let bound := (bindStmt shadowing).run shadowingStart
    bound.2.scopes = shadowingStart.scopes ∧ bound.2.loops = [⟨⟨8⟩, ⟨9⟩⟩] ∧
      bound.2.errors.size = 1 ∧ ElaboratesStmt shadowingStart.scopes (some ⟨⟨8⟩, ⟨9⟩⟩) shadowing bound.1 ∧
      ∀ v, ((bindExpr (.name "a" ⟨0, 0⟩)).run shadowingStart).1 = .name v ⟨0, 0⟩ ↔
        shadowingStart.scopes.Refers "a" v := by
  obtain ⟨hstmts, hexprs, -⟩ := scopes_and_loops_kept shadowingStart
  obtain ⟨-, ⟨hloops, -⟩, -, hstmt⟩ := hstmts shadowing [] [[⟨⟨0⟩, "a", .bool, .global⟩]] rfl
  obtain ⟨-, -, -, hname⟩ := hexprs (.name "a" ⟨0, 0⟩)
  exact ⟨by decide +kernel, hloops, by decide +kernel, hstmt, fun v => hname "a" ⟨0, 0⟩ v rfl⟩

end Parcel
