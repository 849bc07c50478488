import Mathlib.Tactic.Lemma
import Parcel.Syntax.Tree
import Parcel.Token

/-!
# Where the nodes of a tree stand

A node stands on a stretch of lexemes: its span reaches from the start of the first to the end of
the last one. Its children stand on parts of that stretch, one after the other, and between them are
lexemes that belong to none.
-/

namespace Parcel

open List

/-- The first span lies within the second one. -/
def Span.Within (inner outer : Span) : Prop :=
  outer.start ≤ inner.start ∧ inner.stop ≤ outer.stop

/-- The first span ends before the second one starts, or where it does. -/
def Span.Before (a b : Span) : Prop :=
  a.stop ≤ b.start

namespace Syntax

lemma Expr.span_withSpan (span : Span) (e : Expr) : (e.withSpan span).span = span := by
  cases e <;> rfl

lemma Expr.withSpan_span (e : Expr) : e.withSpan e.span = e := by
  cases e <;> rfl

/-! ### Nodes -/

/-- A node of a syntax tree. -/
inductive Node where
  | name (name : Name)
  | type (clause : TypeClause)
  | expr (e : Expr)
  | decl (decl : VarDecl)
  | stmt (stmt : Stmt)
  | function (decl : FunctionDecl)

/-- What a parameter adds to the children of its function. -/
def Param.nodes (param : Param) : List Node :=
  [.name param.name, .type param.type]

/-- The nodes of a member that are no children of others. -/
def Member.nodes : Member → List Node
  | .package name | .load name _ => [.name name]
  | .function decl => [.function decl]
  | .global decl => [.decl decl]

/-- The outermost nodes of a source file. -/
def Program.nodes (program : Program) : List Node :=
  program.members.flatMap Member.nodes

namespace Node

def span : Node → Span
  | name n => n.span
  | type clause => clause.span
  | expr e => e.span
  | decl d => d.span
  | stmt s => s.span
  | function d => d.span

/-- The children of a node, in the order in which they are written. -/
def children : Node → List Node
  | name _ => []
  | type (.mk _ arguments _) => arguments.map type
  | expr e =>
    match e with
    | .literal _ _ | .name _ _ => []
    | .paren inner _ | .unary _ inner _ => [expr inner]
    | .assign left right _ | .binary left _ right _ | .index left right _ => [expr left, expr right]
    | .call package callee arguments _ =>
      package.toList.map name ++ name callee :: arguments.map expr
    | .methodCall receiver callee arguments _ =>
      expr receiver :: name callee :: arguments.map expr
    | .makeArray clause length elements _ =>
      type clause :: length.toList.map expr ++ (elements.getD []).map expr
  | decl d => name d.name :: d.type.toList.map type ++ d.initializer.toList.map expr
  | stmt s =>
    match s with
    | .declaration d => [decl d]
    | .ret value _ => value.toList.map expr
    | .whileLoop head body _ | .loop head body _ => [expr head, stmt body]
    | .forLoop initial condition action body _ =>
      [stmt initial, expr condition, stmt action, stmt body]
    | .fromTo iterator lower upper body _ => [name iterator, expr lower, expr upper, stmt body]
    | .breakLoop _ | .continueLoop _ => []
    | .block stmts _ => stmts.map stmt
    | .expr value => [expr value]
    | .ifElse condition thenBranch elseBranch _ =>
      expr condition :: stmt thenBranch :: elseBranch.toList.map stmt
  | function d =>
    name d.name :: d.params.flatMap Param.nodes ++ d.returnType.toList.map type ++ [stmt d.body]

/-- **The spans of a node and of all nodes below it nest**: each is not empty, it starts where a
lexeme starts and ends where one ends, and the children lie within it, one after the other. -/
inductive Nested (lexemes : List Lexeme) : Node → Prop
  | mk {node : Node} : node.span.start < node.span.stop →
    (∃ lexeme ∈ lexemes, node.span.start = lexeme.span.start) →
    (∃ lexeme ∈ lexemes, node.span.stop = lexeme.span.stop) →
    (∀ child ∈ node.children, child.span.Within node.span) →
    node.children.Pairwise (fun a b => a.span.Before b.span) →
    (∀ child ∈ node.children, Nested lexemes child) → Nested lexemes node

lemma Nested.mono {lexemes lexemes' : List Lexeme} {node : Node} (h : node.Nested lexemes)
    (hsub : lexemes ⊆ lexemes') : node.Nested lexemes' := by
  induction h with
  | mk hlt hstart hstop hwithin hordered _ ih =>
    obtain ⟨first, hfirst, hstart⟩ := hstart
    obtain ⟨last, hlast, hstop⟩ := hstop
    exact .mk hlt ⟨first, hsub hfirst, hstart⟩ ⟨last, hsub hlast, hstop⟩ hwithin hordered ih

end Node

/-! ### Stretches of lexemes -/

variable {used more left right : List Lexeme} {nodes : List Node} {node a b : Node}

/-- The lexemes are not empty, and stand one after the other. -/
structure InOrder (lexemes : List Lexeme) : Prop where
  nonempty : ∀ lexeme ∈ lexemes, lexeme.span.start < lexeme.span.stop
  ordered : lexemes.Pairwise fun a b => a.span.Before b.span

lemma InOrder.sublist (h : InOrder used) (hsub : more.Sublist used) : InOrder more :=
  ⟨fun lexeme hmem => h.nonempty lexeme (hsub.subset hmem), h.ordered.sublist hsub⟩

/-- From the start of the first lexeme to the end of the last one. -/
def extent (used : List Lexeme) : Span :=
  ⟨(used.head?.map (·.span.start)).getD 0, (used.getLast?.map (·.span.stop)).getD 0⟩

lemma exists_extent_start (hne : used ≠ []) :
    ∃ lexeme ∈ used, (extent used).start = lexeme.span.start := by
  obtain ⟨first, rest, rfl⟩ := exists_cons_of_ne_nil hne
  exact ⟨first, mem_cons_self, rfl⟩

lemma exists_extent_stop (hne : used ≠ []) :
    ∃ lexeme ∈ used, (extent used).stop = lexeme.span.stop := by
  refine ⟨used.getLast hne, getLast_mem hne, ?_⟩
  rw [extent, getLast?_eq_some_getLast hne]
  rfl

lemma extent_append (hused : used ≠ []) (hmore : more ≠ []) :
    extent (used ++ more) = ⟨(extent used).start, (extent more).stop⟩ := by
  obtain ⟨first, rest, rfl⟩ := exists_cons_of_ne_nil hused
  rw [extent, getLast?_append, getLast?_eq_some_getLast hmore, extent, extent,
    getLast?_eq_some_getLast hmore]
  rfl

lemma InOrder.within_extent (h : InOrder used) {lexeme : Lexeme} (hmem : lexeme ∈ used) :
    lexeme.span.Within (extent used) := by
  obtain ⟨before, after, rfl⟩ := append_of_mem hmem
  obtain ⟨-, hlater, hearlier⟩ := pairwise_append.mp h.ordered
  constructor
  · by_cases hne : before = []
    · subst hne
      exact Nat.le_refl _
    · obtain ⟨first, hfirst, hstart⟩ := exists_extent_start hne
      have hbefore := hearlier first hfirst lexeme mem_cons_self
      have hpos := h.nonempty first (mem_append_left _ hfirst)
      rw [extent_append hne (cons_ne_nil _ _), hstart]
      exact Nat.le_trans (Nat.le_of_lt hpos) hbefore
  · by_cases hne : after = []
    · subst hne
      simp [extent]
    · obtain ⟨last, hlast, hstop⟩ := exists_extent_stop hne
      have hafter := (pairwise_cons.mp hlater).1 last hlast
      have hpos := h.nonempty last (mem_append_right _ (mem_cons_of_mem _ hlast))
      rw [append_cons, extent_append (by simp) hne, hstop]
      exact Nat.le_trans hafter (Nat.le_of_lt hpos)

lemma InOrder.extent_lt (h : InOrder used) (hne : used ≠ []) :
    (extent used).start < (extent used).stop := by
  obtain ⟨lexeme, hmem, hstart⟩ := exists_extent_start hne
  have hwithin := h.within_extent hmem
  have hpos := h.nonempty lexeme hmem
  unfold Span.Within at hwithin
  omega

/-! ### Nodes on stretches -/

/-- The nodes stand on parts of the stretch, one after the other. -/
def Row (used : List Lexeme) (nodes : List Node) : Prop :=
  InOrder used → nodes.Pairwise (fun a b => a.span.Before b.span) ∧ ∀ node ∈ nodes, node.Nested used

/-- The node stands on the whole stretch. -/
structure Placed (used : List Lexeme) (node : Node) : Prop where
  ne_nil : used ≠ []
  span : InOrder used → node.span = extent used
  nested : InOrder used → node.Nested used

lemma Row.nil : Row used [] :=
  fun _ => ⟨.nil, fun _ h => by cases h⟩

lemma Row.sublist {nodes' : List Node} (h : Row used nodes) (hsub : nodes'.Sublist nodes) :
    Row used nodes' := fun ho =>
  ⟨(h ho).1.sublist hsub, fun node hnode => (h ho).2 node (hsub.subset hnode)⟩

/-- **Stretches side by side**, with their nodes. -/
theorem Row.append {nodes' : List Node} (h : Row used nodes) (h' : Row more nodes') :
    Row (used ++ more) (nodes ++ nodes') := by
  intro ho
  obtain ⟨hordered, hnested⟩ := h (ho.sublist (sublist_append_left _ _))
  obtain ⟨hordered', hnested'⟩ := h' (ho.sublist (sublist_append_right _ _))
  refine ⟨pairwise_append.mpr ⟨hordered, hordered', fun a ha b hb => ?_⟩, fun node hnode => ?_⟩
  · -- the one ends with a lexeme of the first stretch, the other starts with one of the second
    cases hnested a ha with
    | mk _ _ hstop =>
      cases hnested' b hb with
      | mk _ hstart =>
        obtain ⟨last, hlast, hstop⟩ := hstop
        obtain ⟨first, hfirst, hstart⟩ := hstart
        have hbefore := (pairwise_append.mp ho.ordered).2.2 last hlast first hfirst
        rwa [Span.Before, hstop, hstart]
  · rcases mem_append.mp hnode with hnode | hnode
    · exact (hnested node hnode).mono (subset_append_left _ _)
    · exact (hnested' node hnode).mono (subset_append_right _ _)

lemma Row.token (h : Row used nodes) (lexeme : Lexeme) : Row (used ++ [lexeme]) nodes := by
  have hnone : Row [lexeme] [] := .nil
  simpa using h.append hnone

namespace Placed

lemma row (h : Placed used node) : Row used [node] := fun ho =>
  ⟨pairwise_singleton _ _, fun _ hnode => mem_singleton.mp hnode ▸ h.nested ho⟩

/-- **A node whose children stand on its stretch** is nested if its span is the extent of the
stretch. -/
theorem of_row (hne : used ≠ []) (hrow : Row used node.children)
    (hspan : InOrder used → node.span = extent used) : Placed used node := by
  refine ⟨hne, hspan, fun ho => ?_⟩
  obtain ⟨hordered, hnested⟩ := hrow ho
  refine .mk ?_ ?_ ?_ (fun child hchild => ?_) hordered hnested
  · rw [hspan ho]
    exact ho.extent_lt hne
  · rw [hspan ho]
    exact exists_extent_start hne
  · rw [hspan ho]
    exact exists_extent_stop hne
  · rw [hspan ho]
    cases hnested child hchild with
    | mk _ hstart hstop =>
      obtain ⟨first, hfirst, hstart⟩ := hstart
      obtain ⟨last, hlast, hstop⟩ := hstop
      exact ⟨hstart ▸ (ho.within_extent hfirst).1, hstop ▸ (ho.within_extent hlast).2⟩

lemma copied (h : Placed used a) (hchildren : node.children = [a]) (hspan : node.span = a.span) :
    Placed used node :=
  .of_row h.ne_nil (hchildren ▸ h.row) fun ho => hspan.trans (h.span ho)

/-- An expression as a statement, with the span of the stretch. -/
lemma renewed {e : Expr} {span : Span} (h : Placed used (.expr e))
    (hspan : InOrder used → span = extent used) : Placed used (.stmt (.expr (e.withSpan span))) := by
  refine ⟨h.ne_nil, fun ho => (Expr.span_withSpan span e).trans (hspan ho), fun ho => ?_⟩
  have hstmt : Placed used (.stmt (.expr e)) := h.copied rfl rfl
  rw [hspan ho, ← h.span ho]
  exact (Expr.withSpan_span e).symm ▸ hstmt.nested ho

lemma spanned {start : Nat} (hne : used ≠ []) (hrow : Row used node.children)
    (hstart : InOrder used → start = (extent used).start)
    (hspan : node.span = ⟨start, max (extent used).stop start⟩) : Placed used node := by
  refine .of_row hne hrow fun ho => ?_
  have hlt := ho.extent_lt hne
  rw [hspan, hstart ho, Nat.max_eq_left (Nat.le_of_lt hlt)]

lemma selected (h : Placed used a) (hne : more ≠ []) (hrow : Row more nodes)
    (hchildren : node.children = a :: nodes)
    (hspan : node.span = ⟨a.span.start, max (extent more).stop a.span.start⟩) :
    Placed (used ++ more) node := by
  have hextent := extent_append h.ne_nil hne
  have hstart (ho : InOrder (used ++ more)) : a.span.start = (extent (used ++ more)).start := by
    rw [hextent, h.span (ho.sublist (sublist_append_left _ _))]
  refine .spanned (by simp [h.ne_nil]) ?_ hstart (by rw [hspan, hextent])
  rw [hchildren]
  exact h.row.append hrow

lemma merged (ha : Placed left a) (hb : Placed right b) (operator : Lexeme)
    (hchildren : node.children = [a, b]) (hspan : node.span = a.span.merge b.span) :
    Placed (left ++ [operator] ++ right) node := by
  have hrow : Row (left ++ [operator] ++ right) [a, b] := (ha.row.token operator).append hb.row
  refine .of_row (by simp) (hchildren ▸ hrow) fun ho => ?_
  have hbefore : a.span.Before b.span := by simpa using (hrow ho).1
  have hleft := ho.sublist ((sublist_append_left _ _).trans (sublist_append_left _ _))
  have hright := ho.sublist (sublist_append_right _ _)
  have hlt := hleft.extent_lt ha.ne_nil
  have hlt' := hright.extent_lt hb.ne_nil
  rw [extent_append (by simp) hb.ne_nil, extent_append ha.ne_nil (by simp)]
  rw [Span.Before, ha.span hleft, hb.span hright] at hbefore
  rw [hspan, ha.span hleft, hb.span hright, Span.merge, Nat.min_eq_left (by omega),
    Nat.max_eq_right (by omega)]

end Placed

end Syntax

end Parcel
