import Mathlib.Tactic.Lemma
import Parcel.Syntax.Tree

/-!
# Syntax trees: induction, and trees without spans

Induction over expressions and statements as written, and the tree that is left when every span of a
tree is forgotten: two trees are the same up to spans if they are equal without them.
-/

namespace Parcel

/-- Induction over expressions as written: a property of all expressions inside passes to the
expression. -/
lemma Syntax.Expr.structural {P : Syntax.Expr → Prop}
    (literal : ∀ value span, P (.literal value span))
    (paren : ∀ inner span, P inner → P (.paren inner span))
    (assign : ∀ target value span, P target → P value → P (.assign target value span))
    (unary : ∀ op operand span, P operand → P (.unary op operand span))
    (binary : ∀ left op right span, P left → P right → P (.binary left op right span))
    (call : ∀ package name arguments span, (∀ e ∈ arguments, P e) →
      P (.call package name arguments span))
    (methodCall : ∀ receiver name arguments span, P receiver → (∀ e ∈ arguments, P e) →
      P (.methodCall receiver name arguments span))
    (name : ∀ text span, P (.name text span))
    (makeArray : ∀ type length elements span, (∀ e ∈ length, P e) →
      (∀ es ∈ elements, ∀ e ∈ es, P e) → P (.makeArray type length elements span))
    (index : ∀ target index span, P target → P index → P (.index target index span))
    (e : Syntax.Expr) : P e := by
  refine @Syntax.Expr.rec P (fun es => ∀ e ∈ es, P e) (fun e? => ∀ e ∈ e?, P e)
    (fun es? => ∀ es ∈ es?, ∀ e ∈ es, P e) literal paren assign unary binary call methodCall name
    makeArray index ?_ ?_ ?_ ?_ ?_ ?_ e
  · simp
  · intro head tail hhead htail e hmem
    rcases List.mem_cons.mp hmem with rfl | hmem
    · exact hhead
    · exact htail e hmem
  · simp
  · intro e he e' hmem
    cases hmem
    exact he
  · simp
  · intro es hes es' hmem
    cases hmem
    exact hes

/-- Induction over statements as written: a property of all statements inside passes to the
statement. -/
lemma Syntax.Stmt.structural {P : Syntax.Stmt → Prop}
    (declaration : ∀ decl, P (.declaration decl))
    (ret : ∀ value span, P (.ret value span))
    (whileLoop : ∀ condition body span, P body → P (.whileLoop condition body span))
    (forLoop : ∀ initial condition action body span, P initial → P action → P body →
      P (.forLoop initial condition action body span))
    (fromTo : ∀ iterator lower upper body span, P body → P (.fromTo iterator lower upper body span))
    (loop : ∀ count body span, P body → P (.loop count body span))
    (breakLoop : ∀ span, P (.breakLoop span))
    (continueLoop : ∀ span, P (.continueLoop span))
    (block : ∀ stmts span, (∀ stmt ∈ stmts, P stmt) → P (.block stmts span))
    (expr : ∀ value, P (.expr value))
    (ifElse : ∀ condition thenBranch elseBranch span, P thenBranch → (∀ stmt ∈ elseBranch, P stmt) →
      P (.ifElse condition thenBranch elseBranch span))
    (stmt : Syntax.Stmt) : P stmt := by
  refine @Syntax.Stmt.rec P (fun stmts => ∀ stmt ∈ stmts, P stmt) (fun stmt? => ∀ stmt ∈ stmt?, P stmt)
    declaration ret whileLoop forLoop fromTo loop breakLoop continueLoop block expr ifElse
    ?_ ?_ ?_ ?_ stmt
  · simp
  · intro head tail hhead htail stmt hmem
    rcases List.mem_cons.mp hmem with rfl | hmem
    · exact hhead
    · exact htail stmt hmem
  · simp
  · intro stmt hstmt stmt' hmem
    cases hmem
    exact hstmt

/-- Induction over types as written. -/
lemma Syntax.TypeClause.structural {P : Syntax.TypeClause → Prop}
    (mk : ∀ name arguments span, (∀ type ∈ arguments, P type) → P (.mk name arguments span))
    (type : Syntax.TypeClause) : P type := by
  refine @Syntax.TypeClause.rec P (fun types => ∀ type ∈ types, P type) mk ?_ ?_ type
  · simp
  · intro head tail hhead htail type hmem
    rcases List.mem_cons.mp hmem with rfl | hmem
    · exact hhead
    · exact htail type hmem

/-! ### Trees without spans -/

/-- A name without its span. -/
def Name.bare (name : Name) : Name :=
  ⟨name.text, default⟩

namespace Syntax

mutual

/-- A type without its spans. -/
def TypeClause.bare : TypeClause → TypeClause
  | .mk name arguments _ => .mk name (TypeClause.bareEach arguments) default

/-- Types without their spans. -/
def TypeClause.bareEach : List TypeClause → List TypeClause
  | [] => []
  | type :: types => type.bare :: TypeClause.bareEach types

end

mutual

/-- An expression without its spans. -/
def Expr.bare : Expr → Expr
  | .literal value _ => .literal value default
  | .paren inner _ => .paren inner.bare default
  | .assign target value _ => .assign target.bare value.bare default
  | .unary op operand _ => .unary op operand.bare default
  | .binary left op right _ => .binary left.bare op right.bare default
  | .call package callee arguments _ =>
    .call (package.map Name.bare) callee.bare (Expr.bareEach arguments) default
  | .methodCall receiver callee arguments _ =>
    .methodCall receiver.bare callee.bare (Expr.bareEach arguments) default
  | .name text _ => .name text default
  | .makeArray type length elements _ =>
    .makeArray type.bare
      (match length with
        | some length => some length.bare
        | none => none)
      (match elements with
        | some elements => some (Expr.bareEach elements)
        | none => none)
      default
  | .index target place _ => .index target.bare place.bare default

/-- Expressions without their spans. -/
def Expr.bareEach : List Expr → List Expr
  | [] => []
  | e :: es => e.bare :: Expr.bareEach es

end

/-- A declaration without its spans. -/
def VarDecl.bare (decl : VarDecl) : VarDecl :=
  ⟨decl.name.bare, decl.type.map TypeClause.bare, decl.initializer.map Expr.bare, default⟩

mutual

/-- A statement without its spans. -/
def Stmt.bare : Stmt → Stmt
  | .declaration decl => .declaration decl.bare
  | .ret value _ => .ret (value.map Expr.bare) default
  | .whileLoop condition body _ => .whileLoop condition.bare body.bare default
  | .forLoop initial condition action body _ =>
    .forLoop initial.bare condition.bare action.bare body.bare default
  | .fromTo iterator lower upper body _ =>
    .fromTo iterator.bare lower.bare upper.bare body.bare default
  | .loop count body _ => .loop count.bare body.bare default
  | .breakLoop _ => .breakLoop default
  | .continueLoop _ => .continueLoop default
  | .block stmts _ => .block (Stmt.bareEach stmts) default
  | .expr value => .expr value.bare
  | .ifElse condition thenBranch elseBranch _ =>
    .ifElse condition.bare thenBranch.bare
      (match elseBranch with
        | some elseBranch => some elseBranch.bare
        | none => none)
      default

/-- Statements without their spans. -/
def Stmt.bareEach : List Stmt → List Stmt
  | [] => []
  | stmt :: stmts => stmt.bare :: Stmt.bareEach stmts

end

/-- A parameter without its spans. -/
def Param.bare (param : Param) : Param :=
  ⟨param.name.bare, param.type.bare⟩

/-- A function without its spans. -/
def FunctionDecl.bare (decl : FunctionDecl) : FunctionDecl :=
  ⟨decl.name.bare, decl.params.map Param.bare, decl.returnType.map TypeClause.bare, decl.body.bare,
    default⟩

/-- A member without its spans. -/
def Member.bare : Member → Member
  | .package name => .package name.bare
  | .load loaded included => .load loaded.bare included
  | .function decl => .function decl.bare
  | .global decl => .global decl.bare

/-- A source file without its spans. -/
def Program.bare (program : Program) : Program :=
  ⟨program.members.map Member.bare⟩

@[simp] lemma TypeClause.bareEach_eq_map (types : List TypeClause) :
    TypeClause.bareEach types = types.map TypeClause.bare := by
  induction types with
  | nil => rfl
  | cons type types ih => rw [TypeClause.bareEach, ih, List.map_cons]

@[simp] lemma Expr.bareEach_eq_map (es : List Expr) : Expr.bareEach es = es.map Expr.bare := by
  induction es with
  | nil => rfl
  | cons e es ih => rw [Expr.bareEach, ih, List.map_cons]

@[simp] lemma Stmt.bareEach_eq_map (stmts : List Stmt) :
    Stmt.bareEach stmts = stmts.map Stmt.bare := by
  induction stmts with
  | nil => rfl
  | cons stmt stmts ih => rw [Stmt.bareEach, ih, List.map_cons]

end Syntax

end Parcel
