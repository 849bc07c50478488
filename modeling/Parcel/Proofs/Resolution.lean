import Parcel.Proofs.Typing.Program

/-!
# Nothing unresolved without an error

Binding puts an unresolved expression or an unresolved type in the place of what it cannot make
sense of. Whenever one is left in a program or in the catalog, an error is reported.

## Main results

* `resolved_of_no_errors` — what is bound without errors is resolved throughout.
-/

namespace Parcel

open List

/-! ### What occurs in a program -/

/-- Nothing in the type is unresolved, at any depth of arrays. -/
def Ty.Resolved : Ty → Prop
  | .unresolved => False
  | .array element => element.Resolved
  | .integer _ | .float | .double | .bool | .string | .void | .container _ => True

/-- The types of the parameters, of the result and of the receiver. -/
def FunctionSymbol.types (f : FunctionSymbol) : List Ty :=
  f.params.map (·.type) ++ f.returnType :: f.receiver.toList.map (·.type)

namespace Code

mutual

/-- An expression and all expressions inside it. -/
def Expr.nodes : Expr → List Expr
  | .literal value span => [.literal value span]
  | .name v span => [.name v span]
  | .unresolved span => [.unresolved span]
  | .paren inner span => .paren inner span :: inner.nodes
  | .assign target value span => .assign target value span :: (target.nodes ++ value.nodes)
  | .unary op operand type span => .unary op operand type span :: operand.nodes
  | .binary left op right type span =>
    .binary left op right type span :: (left.nodes ++ right.nodes)
  | .call f arguments span => .call f arguments span :: nodesAll arguments
  | .methodCall f receiver arguments span =>
    .methodCall f receiver arguments span :: (receiver.nodes ++ nodesAll arguments)
  | .conversion operand type span => .conversion operand type span :: operand.nodes
  | .makeLength length type span => .makeLength length type span :: length.nodes
  | .makeElements elements type span => .makeElements elements type span :: nodesAll elements
  | .index target index type span => .index target index type span :: (target.nodes ++ index.nodes)

/-- Expressions and all expressions inside them. -/
def nodesAll : List Expr → List Expr
  | [] => []
  | e :: rest => e.nodes ++ nodesAll rest

end

/-- The types that an expression itself mentions: its own, and those of the variable or the function
that it refers to. -/
def Expr.ownTypes : Expr → List Ty
  | .name v _ => [v.type]
  | .call f _ _ | .methodCall f _ _ _ => f.types
  | e => [e.type]

/-- The variables that a statement itself mentions outside of expressions. -/
def Stmt.mentioned : Stmt → List Var
  | .declare v _ | .fromTo v _ _ _ _ | .loop v _ _ _ | .delete v => [v]
  | .approach v target => [v, target]
  | .ret _ | .whileLoop _ _ _ | .forLoop _ _ _ _ _ | .block _ | .expr _ | .ifElse _ _ _ | .label _
  | .goto _ | .gotoIf _ _ => []

/-- An expression is resolved itself, and so are the types that it mentions. -/
structure Expr.OwnResolved (e : Expr) : Prop where
  node : ∀ span, e ≠ .unresolved span
  types : ∀ type ∈ e.ownTypes, type.Resolved

/-- The expressions and variables of a statement itself are resolved. -/
structure Stmt.OwnResolved (stmt : Stmt) : Prop where
  vars : ∀ v ∈ stmt.mentioned, v.type.Resolved
  nodes : ∀ e ∈ stmt.ownExprs, ∀ node ∈ e.nodes, node.OwnResolved

/-- All that occurs in a program is resolved: signatures, bodies and initial values. -/
structure Program.Resolved (p : Program) : Prop where
  symbols : ∀ f ∈ p.functions, ∀ type ∈ f.symbol.types, type.Resolved
  bodies : ∀ f ∈ p.functions, ∀ stmt ∈ f.body.stmts, stmt.OwnResolved
  globals : ∀ group ∈ p.globals, ∀ stmt ∈ group.stmts, ∀ part ∈ stmt.parts, part.OwnResolved

end Code

/-- All that is registered in a catalog is resolved. -/
structure Catalog.Resolved (c : Catalog) : Prop where
  types : ∀ type ∈ c.types, type.Resolved
  functions : ∀ p ∈ c.packages, ∀ f ∈ p.functions, ∀ type ∈ f.types, type.Resolved
  globals : ∀ p ∈ c.packages, ∀ v ∈ p.globals, v.type.Resolved
  containers : ∀ container ∈ c.containers, container.type.Resolved ∧
    (∀ v ∈ container.fields, v.type.Resolved) ∧
    ∀ f ∈ container.methods, ∀ type ∈ f.types, type.Resolved

/-! ### Typed code is resolved -/

lemma Ty.Formed.resolved {type : Ty} (h : type.Formed) : type.Resolved := by
  induction type with
  | unresolved => exact h
  | array element ih => exact ih h
  | _ => trivial

lemma FunctionSymbol.Formed.resolved {f : FunctionSymbol} (h : f.Formed) :
    ∀ type ∈ f.types, type.Resolved := by
  intro type htype
  simp only [FunctionSymbol.types, mem_append, mem_cons, mem_map,
    Option.mem_toList] at htype
  rcases htype with ⟨v, hv, rfl⟩ | rfl | ⟨v, hv, rfl⟩
  · exact (h.params v hv).resolved
  · exact h.result.resolved
  · exact (h.receiver v hv).resolved

lemma Catalog.Formed.resolved {c : Catalog} (h : c.Formed) : c.Resolved where
  types type htype := (h.types type htype).resolved
  functions p hp f hf := (h.functions f ⟨p, hp, hf⟩).resolved
  globals p hp v hv := (h.globals v ⟨p, hp, hv⟩).resolved
  containers container hcontainer :=
    have hformed := h.containers container hcontainer
    ⟨hformed.type.resolved, fun v hv => (hformed.fields v hv).resolved,
      fun f hf => (hformed.methods f hf).resolved⟩

namespace Code

variable {e : Expr} {τ : Ty}

/-- What signatures allow to refer to has formed types. -/
structure Signatures.Formed (sigs : Signatures) : Prop where
  var : ∀ v, sigs.var v → v.type.Formed
  function : ∀ f, sigs.function f → f.Formed
  method : ∀ type f, sigs.method type f → f.Formed

variable {sigs : Signatures} (hsigs : sigs.Formed)

lemma mem_nodesAll {es : List Expr} {node : Expr} :
    node ∈ nodesAll es ↔ ∃ e ∈ es, node ∈ e.nodes := by
  induction es with
  | nil => simp [nodesAll]
  | cons e es ih => simp [nodesAll, ih]

include hsigs

lemma HasType.formed (h : HasType sigs e τ) : τ.Formed := by
  induction h with
  | @literal value _ _ => cases value <;> trivial
  | paren _ _ ih | assignIndex _ _ _ _ _ _ _ ih => exact ih
  | name _ hv | assignName _ _ hv _ _ => exact hsigs.var _ hv
  | unary _ _ hop => exact UnaryOp.formed_of_result? hop
  | call _ hf _ _ _ => exact (hsigs.function _ hf).result
  | methodCall _ _ hf _ _ _ _ => exact (hsigs.method _ _ hf).result
  | conversion _ _ hτ | makeLength _ _ hτ | makeElements _ _ hτ | index _ _ _ hτ
  | binary _ _ _ _ hτ => exact hτ

/-- A typed expression is resolved itself. -/
lemma HasType.ownResolved (h : HasType sigs e τ) : e.OwnResolved := by
  have hformed := h.formed hsigs
  have htype : ∀ type ∈ [e.type], type.Resolved :=
    forall_mem_singleton.mpr (h.type_eq ▸ hformed.resolved)
  cases h with
  | call _ hf _ _ => exact ⟨fun _ => Expr.noConfusion, (hsigs.function _ hf).resolved⟩
  | methodCall _ _ hf _ _ => exact ⟨fun _ => Expr.noConfusion, (hsigs.method _ _ hf).resolved⟩
  | _ => exact ⟨fun _ => Expr.noConfusion, htype⟩

/-- **All expressions inside a typed one are resolved.** -/
theorem HasType.nodes_ownResolved (h : HasType sigs e τ) : ∀ node ∈ e.nodes, node.OwnResolved := by
  have both {l r : List Expr} (hl : ∀ node ∈ l, node.OwnResolved)
      (hr : ∀ node ∈ r, node.OwnResolved) : ∀ node ∈ l ++ r, node.OwnResolved :=
    forall_mem_append.mpr ⟨hl, hr⟩
  have all {f : FunctionSymbol} {arguments : List Expr} (hlength : arguments.length = f.params.length)
      (ih : ∀ p ∈ arguments.zip (f.params.map (·.type)), ∀ node ∈ p.1.nodes, node.OwnResolved) :
      ∀ node ∈ nodesAll arguments, node.OwnResolved := by
    intro node hnode
    obtain ⟨e, he, hnode⟩ := mem_nodesAll.mp hnode
    obtain ⟨σ, hp⟩ := exists_mem_zip (hlength.trans (length_map _).symm) he
    exact ih (e, σ) hp node hnode
  have hown := h.ownResolved hsigs
  induction h with
  | literal | name => exact forall_mem_singleton.mpr hown
  | paren _ he ih | unary _ he _ ih | conversion _ he _ ih | makeLength _ he _ ih =>
    exact forall_mem_cons.mpr ⟨hown, ih (he.ownResolved hsigs)⟩
  | assignName span _ hv he ih =>
    have htarget := (HasType.name span hv).ownResolved hsigs
    exact forall_mem_cons.mpr ⟨hown, both (forall_mem_singleton.mpr htarget)
      (ih (he.ownResolved hsigs))⟩
  | assignIndex span _ ht hi he iht ihi ihe =>
    have hformed : Ty.Formed _ := ht.formed hsigs
    have htarget := (HasType.index span ht hi hformed).ownResolved hsigs
    exact forall_mem_cons.mpr ⟨hown, both (forall_mem_cons.mpr ⟨htarget,
      both (iht (ht.ownResolved hsigs)) (ihi (hi.ownResolved hsigs))⟩) (ihe (he.ownResolved hsigs))⟩
  | binary _ hl hr _ _ ihl ihr | index _ hl hr _ ihl ihr =>
    exact forall_mem_cons.mpr ⟨hown, both (ihl (hl.ownResolved hsigs))
      (ihr (hr.ownResolved hsigs))⟩
  | call _ _ hlength hargs ih =>
    exact forall_mem_cons.mpr ⟨hown, all hlength fun p hp =>
      ih p hp ((hargs p hp).ownResolved hsigs)⟩
  | methodCall _ hr _ hlength hargs ihr ih =>
    exact forall_mem_cons.mpr ⟨hown, both (ihr (hr.ownResolved hsigs)) (all hlength fun p hp =>
      ih p hp ((hargs p hp).ownResolved hsigs))⟩
  | makeElements _ hes _ ih =>
    refine forall_mem_cons.mpr ⟨hown, fun node hnode => ?_⟩
    obtain ⟨e, he, hnode⟩ := mem_nodesAll.mp hnode
    exact ih e he ((hes e he).ownResolved hsigs) node hnode

/-- A typed statement that ends no scope is resolved itself. -/
lemma Stmt.OwnTyped.ownResolved {result : Ty} {stmt : Stmt} (h : stmt.OwnTyped sigs result)
    (hdelete : ∀ v, stmt ≠ .delete v) : stmt.OwnResolved := by
  have var {v : Var} (hv : sigs.var v) : v.type.Resolved := (hsigs.var v hv).resolved
  have noVars : ∀ v ∈ ([] : List Var), v.type.Resolved := forall_mem_nil _
  have noNodes : ∀ e ∈ ([] : List Expr), ∀ node ∈ e.nodes, node.OwnResolved := forall_mem_nil _
  have oneVar {v : Var} (hv : sigs.var v) : ∀ w ∈ [v], w.type.Resolved :=
    forall_mem_singleton.mpr (var hv)
  have oneNode {e : Expr} {τ : Ty} (he : HasType sigs e τ) :
      ∀ e' ∈ [e], ∀ node ∈ e'.nodes, node.OwnResolved :=
    forall_mem_singleton.mpr (he.nodes_ownResolved hsigs)
  cases stmt with
  | declare v initializer => cases initializer with
    | none => exact ⟨oneVar h.1, noNodes⟩
    | some => exact ⟨oneVar h.1, oneNode h.2⟩
  | ret value => cases value with
    | none => exact ⟨noVars, noNodes⟩
    | some => exact ⟨noVars, oneNode h⟩
  | expr => exact h.elim fun _ he => ⟨noVars, oneNode he⟩
  | whileLoop | forLoop | ifElse | gotoIf => exact ⟨noVars, oneNode h⟩
  | fromTo =>
    exact ⟨oneVar h.1, forall_mem_cons.mpr ⟨h.2.2.1.nodes_ownResolved hsigs, oneNode h.2.2.2⟩⟩
  | loop => exact ⟨oneVar h.1, oneNode h.2.2⟩
  | approach => exact ⟨forall_mem_cons.mpr ⟨var h.1.1, oneVar h.2.1⟩, noNodes⟩
  | block | label | goto => exact ⟨noVars, noNodes⟩
  | delete v => exact absurd rfl (hdelete v)

end Code

/-! ### Whole programs -/

section Files

open Code

variable {catalog : Catalog} {ids : Ids} {b : Build}

lemma Build.Typed.signatures_formed (h : b.Typed catalog []) (hcatalog : catalog.Formed)
    (hclean : b.errors = #[]) : (b.signatures catalog []).Formed where
  var _ hv := hv
  function f hf := hf.elim (hcatalog.functions f) (h.symbols hclean f)
  method _ _ hf := hcatalog.method hf

lemma Build.Typed.program_resolved (h : b.Typed catalog []) (hshape : b.Shaped catalog ids [])
    (hcatalog : catalog.Formed) (hclean : b.errors = #[]) : b.program.Resolved := by
  have hsigs := h.signatures_formed hcatalog hclean
  refine ⟨fun f hf => ?_, fun f hf stmt hstmt => ?_, fun group hgroup stmt hstmt => ?_⟩
  · refine (h.symbols hclean f.symbol ?_).resolved
    exact mem_append_left _ (mem_map_of_mem hf)
  · obtain ⟨body, hbody, htyped⟩ := h.bodies hclean f hf
    obtain ⟨body', hbody', hstructured, -⟩ := hshape.bodies f hf
    obtain rfl := Body.structured.inj (hbody.symm.trans hbody')
    rw [hbody] at hstmt
    exact (htyped stmt hstmt).ownResolved hsigs (hstructured.ne_delete stmt hstmt)
  · have htyped := h.declarations hclean group hgroup stmt hstmt
    obtain ⟨v, initializer, rfl, -⟩ := hshape.declarations group hgroup stmt hstmt
    exact forall_mem_singleton.mpr (htyped.ownResolved hsigs fun _ => Stmt.noConfusion)

end Files

/-- **Nothing is left unresolved without an error.** If files are bound without errors where only
the package `sys` is known, the program and the catalog are resolved throughout. -/
theorem resolved_of_no_errors (files : List Syntax.Program) :
    let sys := Catalog.empty.withSys {}
    let build := bindFiles sys.1 sys.2 files
    build.errors = #[] → build.program.Resolved ∧ build.catalog.Resolved := by
  intro sys build hclean
  have htyped : build.Typed sys.1 [] := typed_bindFiles formed_withSys sys.2 files
  have hshape : build.Shaped sys.1 sys.2 [] := shaped_bindFiles sys.1 sys.2 files
  exact ⟨htyped.program_resolved hshape formed_withSys hclean,
    (htyped.formed hshape formed_withSys hclean).resolved⟩

/-- A file with a variable of the package, an array as a parameter, and calls of functions and
methods of `sys`. -/
def greeting : Syntax.Program :=
  let here : Span := ⟨0, 0⟩
  let name (text : String) : Syntax.Expr := .name text here
  let bool (value : Bool) : Syntax.Expr := .literal (.bool value) here
  let built : Syntax.Expr := .methodCall (name "text") ⟨"Build", here⟩ [] here
  let body : Syntax.Stmt := .block
    [.declaration ⟨⟨"text", here⟩, none,
        some (.call (some ⟨"sys", here⟩) ⟨"Builder", here⟩ [] here), here⟩,
      .expr (.methodCall (name "text") ⟨"Append", here⟩ [.literal (.string "hello") here] here),
      .ifElse (.unary .not (name "shown") here)
        (.block [.expr (.call (some ⟨"sys", here⟩) ⟨"Print", here⟩ [built] here),
          .expr (.assign (name "shown") (bool true) here)] here) none here,
      .ret (some (name "names")) here] here
  let strings : Syntax.TypeClause := .mk arrayName [.mk "string" [] here] here
  ⟨[.load ⟨"sys", here⟩ false, .global ⟨⟨"shown", here⟩, none, some (bool false), here⟩,
    .function ⟨⟨"greet", here⟩, [⟨⟨"names", here⟩, strings⟩], some strings, body, here⟩]⟩

theorem resolved_greeting :
    let sys := Catalog.empty.withSys {}
    let build := bindFiles sys.1 sys.2 [greeting]
    build.errors = #[] ∧ build.program.functions.length = 1 ∧ build.program.globalVars.length = 1 ∧
      build.program.Resolved ∧ build.catalog.Resolved := by
  have haccepted : let sys := Catalog.empty.withSys {}
      let build := bindFiles sys.1 sys.2 [greeting]
      build.errors.size = 0 ∧ build.program.functions.length = 1 ∧
        build.program.globalVars.length = 1 := by decide +kernel
  generalize [greeting] = files at haccepted ⊢
  obtain ⟨hsize, hfunctions, hglobals⟩ := haccepted
  have hclean := Array.eq_empty_of_size_eq_zero hsize
  exact ⟨hclean, hfunctions, hglobals, resolved_of_no_errors files hclean⟩

end Parcel
