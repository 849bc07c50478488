import Mathlib.Logic.Equiv.Defs
import Parcel.Binding.Program
import Parcel.Proofs.Code.Flat

/-!
# Renaming of ids

The ids of variables, functions and labels only tell things apart, and so do the indices of files.
A renaming replaces them, one to one, in everything that binding builds.
-/

namespace Parcel

/-- New ids of variables, functions and labels, and new indices of files. -/
structure Renaming where
  var : Equiv.Perm Nat
  function : Equiv.Perm Nat
  label : Equiv.Perm Nat
  file : Equiv.Perm Nat

namespace Renaming

/-- The renaming that changes nothing. -/
protected def refl : Renaming :=
  ⟨.refl _, .refl _, .refl _, .refl _⟩

/-- One renaming after another. -/
protected def trans (ρ σ : Renaming) : Renaming :=
  ⟨ρ.var.trans σ.var, ρ.function.trans σ.function, ρ.label.trans σ.label, ρ.file.trans σ.file⟩

/-- The ids below the counters stay as they are. -/
structure Fixes (ρ : Renaming) (ids : Ids) : Prop where
  var : ∀ n < ids.nextVar, ρ.var n = n
  function : ∀ n < ids.nextFunction, ρ.function n = n
  label : ∀ n < ids.nextLabel, ρ.label n = n

/-- The ids from the counters on stay as they are. -/
structure Keeps (ρ : Renaming) (ids : Ids) : Prop where
  var : ∀ n, ids.nextVar ≤ n → ρ.var n = n
  function : ∀ n, ids.nextFunction ≤ n → ρ.function n = n
  label : ∀ n, ids.nextLabel ≤ n → ρ.label n = n

end Renaming

/-! ### Symbols -/

/-- The variable under its new id. -/
def Var.rename (ρ : Renaming) (v : Var) : Var :=
  { v with id := ⟨ρ.var v.id.index⟩ }

/-- The function under its new id, and so its parameters and its receiver. -/
def FunctionSymbol.rename (ρ : Renaming) (f : FunctionSymbol) : FunctionSymbol :=
  { f with
    id := ⟨ρ.function f.id.index⟩
    params := f.params.map (·.rename ρ)
    receiver := f.receiver.map (·.rename ρ) }

/-- The container with new ids. -/
def Container.rename (ρ : Renaming) (container : Container) : Container :=
  { container with
    fields := container.fields.map (·.rename ρ)
    methods := container.methods.map (·.rename ρ) }

/-- The functions with new ids, in the same places. -/
def FunctionTable.rename (ρ : Renaming) (t : FunctionTable) : FunctionTable :=
  { t with list := t.list.map (·.rename ρ) }

/-- The package with new ids. -/
def Package.rename (ρ : Renaming) (p : Package) : Package :=
  { p with
    table := p.table.rename ρ
    globals := p.globals.map (·.rename ρ) }

/-- The catalog with new ids. -/
def Catalog.rename (ρ : Renaming) (c : Catalog) : Catalog :=
  { c with
    packages := c.packages.map (·.rename ρ)
    containers := c.containers.map (·.rename ρ) }

/-- The scopes with new ids. -/
def Scopes.rename (ρ : Renaming) (s : Scopes) : Scopes :=
  ⟨s.chain.map (·.map (·.rename ρ))⟩

/-- The label under its new id. -/
def Label.rename (ρ : Renaming) (label : Label) : Label :=
  ⟨ρ.label label.index⟩

/-! ### Code -/

namespace Code

mutual

/-- The expression with new ids. -/
def Expr.rename (ρ : Renaming) : Expr → Expr
  | .literal value span => .literal value span
  | .paren inner span => .paren (inner.rename ρ) span
  | .assign target value span => .assign (target.rename ρ) (value.rename ρ) span
  | .unary op operand type span => .unary op (operand.rename ρ) type span
  | .binary left op right type span => .binary (left.rename ρ) op (right.rename ρ) type span
  | .call f arguments span => .call (f.rename ρ) (renameEach ρ arguments) span
  | .methodCall f receiver arguments span =>
    .methodCall (f.rename ρ) (receiver.rename ρ) (renameEach ρ arguments) span
  | .name v span => .name (v.rename ρ) span
  | .conversion operand type span => .conversion (operand.rename ρ) type span
  | .makeLength length type span => .makeLength (length.rename ρ) type span
  | .makeElements elements type span => .makeElements (renameEach ρ elements) type span
  | .index target index type span => .index (target.rename ρ) (index.rename ρ) type span
  | .unresolved span => .unresolved span

/-- The expressions with new ids. -/
def renameEach (ρ : Renaming) : List Expr → List Expr
  | [] => []
  | e :: rest => e.rename ρ :: renameEach ρ rest

end

/-- The labels of a loop under their new ids. -/
def LoopLabels.rename (ρ : Renaming) (labels : LoopLabels) : LoopLabels :=
  ⟨labels.onBreak.rename ρ, labels.onContinue.rename ρ⟩

mutual

/-- The statement with new ids. -/
def Stmt.rename (ρ : Renaming) : Stmt → Stmt
  | .declare v initializer => .declare (v.rename ρ) (initializer.map (·.rename ρ))
  | .ret value => .ret (value.map (·.rename ρ))
  | .whileLoop condition body labels =>
    .whileLoop (condition.rename ρ) (body.rename ρ) (labels.rename ρ)
  | .forLoop initial condition action body labels =>
    .forLoop (initial.rename ρ) (condition.rename ρ) (action.rename ρ) (body.rename ρ)
      (labels.rename ρ)
  | .fromTo iterator lower upper body labels =>
    .fromTo (iterator.rename ρ) (lower.rename ρ) (upper.rename ρ) (body.rename ρ)
      (labels.rename ρ)
  | .loop iterator count body labels =>
    .loop (iterator.rename ρ) (count.rename ρ) (body.rename ρ) (labels.rename ρ)
  | .block stmts => .block (renameAll ρ stmts)
  | .expr value => .expr (value.rename ρ)
  | .ifElse condition thenBranch none => .ifElse (condition.rename ρ) (thenBranch.rename ρ) none
  | .ifElse condition thenBranch (some elseBranch) =>
    .ifElse (condition.rename ρ) (thenBranch.rename ρ) (some (elseBranch.rename ρ))
  | .label label => .label (label.rename ρ)
  | .goto label => .goto (label.rename ρ)
  | .gotoIf condition label => .gotoIf (condition.rename ρ) (label.rename ρ)
  | .delete v => .delete (v.rename ρ)
  | .approach v target => .approach (v.rename ρ) (target.rename ρ)

/-- The statements with new ids. -/
def renameAll (ρ : Renaming) : List Stmt → List Stmt
  | [] => []
  | stmt :: stmts => stmt.rename ρ :: renameAll ρ stmts

end

lemma renameAll_eq_map (ρ : Renaming) (stmts : List Stmt) :
    renameAll ρ stmts = stmts.map (·.rename ρ) := by
  induction stmts with
  | nil => rfl
  | cons stmt stmts ih => rw [renameAll, ih, List.map_cons]

/-- The body with new ids. -/
def Body.rename (ρ : Renaming) : Body → Body
  | .structured body => .structured (body.rename ρ)
  | .lowered code => .lowered (code.map (·.rename ρ))

/-- The function with new ids and the new index of its file. -/
def Function.rename (ρ : Renaming) (f : Function) : Function :=
  ⟨f.symbol.rename ρ, f.file.map ρ.file, f.body.rename ρ⟩

end Code

/-! ### Files -/

/-- The error in the file under its new index. -/
def FileError.rename (ρ : Renaming) (e : FileError) : FileError :=
  { e with file := e.file.map ρ.file }

/-- The file under its new index. -/
def SourceFile.rename (ρ : Renaming) (file : SourceFile) : SourceFile :=
  { file with index := ρ.file file.index }

/-- The pending function with new ids, in the file under its new index. -/
def Pending.rename (ρ : Renaming) (f : Pending) : Pending :=
  { f with file := f.file.rename ρ, symbol := f.symbol.rename ρ }

/-! ### What stays -/

section Fields

variable (ρ : Renaming) (f : FunctionSymbol)

@[simp] lemma Var.name_rename (v : Var) : (v.rename ρ).name = v.name := rfl
@[simp] lemma Var.type_rename (v : Var) : (v.rename ρ).type = v.type := rfl
@[simp] lemma FunctionSymbol.name_rename : (f.rename ρ).name = f.name := rfl
@[simp] lemma FunctionSymbol.package_rename : (f.rename ρ).package = f.package := rfl
@[simp] lemma FunctionSymbol.returnType_rename : (f.rename ρ).returnType = f.returnType := rfl
@[simp] lemma FunctionSymbol.params_rename : (f.rename ρ).params = f.params.map (·.rename ρ) := rfl
@[simp] lemma Package.name_rename (p : Package) : (p.rename ρ).name = p.name := rfl
@[simp] lemma SourceFile.program_rename (file : SourceFile) :
    (file.rename ρ).program = file.program := rfl
@[simp] lemma SourceFile.index_rename (file : SourceFile) :
    (file.rename ρ).index = ρ.file file.index := rfl
@[simp] lemma Container.type_rename (c : Container) : (c.rename ρ).type = c.type := rfl
@[simp] lemma Container.methods_rename (c : Container) :
    (c.rename ρ).methods = c.methods.map (·.rename ρ) := rfl

namespace Code.Expr

@[simp] lemma type_rename (e : Expr) : (e.rename ρ).type = e.type := by
  fun_induction Expr.type e with
  | case2 inner span ih => exact ih
  | case3 target value span ih => exact ih
  | _ => rfl

@[simp] lemma span_rename (e : Expr) : (e.rename ρ).span = e.span := by
  cases e <;> rfl

lemma withSpan_rename (span : Span) (e : Expr) :
    (e.rename ρ).withSpan span = (e.withSpan span).rename ρ := by
  cases e <;> rfl

end Code.Expr

end Fields

lemma map_eq_self_iff {α : Type} {f : α → α} {l : List α} :
    l.map f = l ↔ ∀ a ∈ l, f a = a := by
  conv_lhs => rhs; rw [← List.map_id l]
  exact List.map_inj_left

/-! ### The renaming that changes nothing -/

lemma Var.rename_refl (v : Var) : v.rename .refl = v := rfl

lemma map_rename_refl (vars : List Var) : vars.map (·.rename .refl) = vars :=
  map_eq_self_iff.mpr fun _ _ => rfl

lemma FunctionSymbol.rename_refl (f : FunctionSymbol) : f.rename .refl = f := by
  have hreceiver : f.receiver.map (·.rename .refl) = f.receiver := by
    cases f.receiver <;> rfl
  rw [FunctionSymbol.rename, map_rename_refl, hreceiver]
  rfl

lemma Container.rename_refl (c : Container) : c.rename .refl = c := by
  rw [Container.rename, map_rename_refl, map_eq_self_iff.mpr fun f _ => f.rename_refl]

lemma FunctionTable.rename_refl (t : FunctionTable) : t.rename .refl = t := by
  rw [FunctionTable.rename, map_eq_self_iff.mpr fun f _ => f.rename_refl]

lemma Package.rename_refl (p : Package) : p.rename .refl = p := by
  rw [Package.rename, map_rename_refl, FunctionTable.rename_refl]

lemma Scopes.rename_refl (s : Scopes) : s.rename .refl = s := by
  rw [Scopes.rename, map_eq_self_iff.mpr fun scope _ => map_rename_refl scope]

namespace Code

mutual

lemma Expr.rename_refl (e : Expr) : e.rename .refl = e := by
  cases e with
  | literal | unresolved | name => rfl
  | paren e | unary _ e | conversion e | makeLength e => rw [Expr.rename, e.rename_refl]
  | assign left right | binary left _ right | index left right =>
    rw [Expr.rename, left.rename_refl, right.rename_refl]
  | call f arguments => rw [Expr.rename, f.rename_refl, renameEach_refl arguments]
  | methodCall f receiver arguments =>
    rw [Expr.rename, f.rename_refl, receiver.rename_refl, renameEach_refl arguments]
  | makeElements elements => rw [Expr.rename, renameEach_refl elements]

lemma renameEach_refl (exprs : List Expr) : renameEach .refl exprs = exprs := by
  cases exprs with
  | nil => rfl
  | cons e rest => rw [renameEach, e.rename_refl, renameEach_refl rest]

end

lemma Stmt.rename_refl (stmt : Stmt) : stmt.rename .refl = stmt := by
  induction stmt using Stmt.structural with
  | declare v initializer =>
    cases initializer with
    | none => rfl
    | some e => rw [Stmt.rename, Option.map_some, e.rename_refl]; rfl
  | ret value =>
    cases value with
    | none => rfl
    | some e => rw [Stmt.rename, Option.map_some, e.rename_refl]
  | whileLoop condition _ _ ih | loop _ condition _ _ ih =>
    rw [Stmt.rename, condition.rename_refl, ih]; rfl
  | forLoop initial condition action body labels ihi iha ihb =>
    rw [Stmt.rename, condition.rename_refl, ihi, iha, ihb]; rfl
  | fromTo iterator lower upper body labels ih =>
    rw [Stmt.rename, lower.rename_refl, upper.rename_refl, ih]; rfl
  | block stmts ih => rw [Stmt.rename, renameAll_eq_map, map_eq_self_iff.mpr ih]
  | expr value => rw [Stmt.rename, value.rename_refl]
  | ifThen condition thenBranch ih => rw [Stmt.rename, condition.rename_refl, ih]
  | ifElse condition thenBranch elseBranch iht ihe =>
    rw [Stmt.rename, condition.rename_refl, iht, ihe]
  | gotoIf condition => rw [Stmt.rename, condition.rename_refl]; rfl
  | _ => rfl

end Code

/-! ### One renaming after another -/

section Trans

variable (ρ σ : Renaming)

lemma Var.rename_trans (v : Var) : v.rename (ρ.trans σ) = (v.rename ρ).rename σ := rfl

lemma map_rename_trans {α : Type} {rename : Renaming → α → α}
    (h : ∀ a, rename (ρ.trans σ) a = rename σ (rename ρ a)) (l : List α) :
    l.map (rename (ρ.trans σ)) = (l.map (rename ρ)).map (rename σ) := by
  rw [List.map_map]
  exact List.map_congr_left fun a _ => h a

lemma FunctionSymbol.rename_trans (f : FunctionSymbol) :
    f.rename (ρ.trans σ) = (f.rename ρ).rename σ := by
  simp only [FunctionSymbol.rename, FunctionSymbol.mk.injEq, true_and]
  refine ⟨rfl, map_rename_trans ρ σ (Var.rename_trans ρ σ) f.params, ?_, trivial⟩
  cases f.receiver <;> rfl

lemma Container.rename_trans (c : Container) :
    c.rename (ρ.trans σ) = (c.rename ρ).rename σ := by
  simp only [Container.rename, Container.mk.injEq, true_and]
  exact ⟨map_rename_trans ρ σ (Var.rename_trans ρ σ) c.fields,
    map_rename_trans ρ σ (FunctionSymbol.rename_trans ρ σ) c.methods⟩

lemma Package.rename_trans (p : Package) : p.rename (ρ.trans σ) = (p.rename ρ).rename σ := by
  simp only [Package.rename, Package.mk.injEq, true_and]
  refine ⟨?_, map_rename_trans ρ σ (Var.rename_trans ρ σ) p.globals, trivial⟩
  rw [FunctionTable.rename, map_rename_trans ρ σ (FunctionSymbol.rename_trans ρ σ)]
  rfl

lemma Catalog.rename_trans (c : Catalog) : c.rename (ρ.trans σ) = (c.rename ρ).rename σ := by
  simp only [Catalog.rename, Catalog.mk.injEq, true_and]
  exact ⟨map_rename_trans ρ σ (Package.rename_trans ρ σ) c.packages,
    map_rename_trans ρ σ (Container.rename_trans ρ σ) c.containers⟩

namespace Code

mutual

lemma Expr.rename_trans (e : Expr) : e.rename (ρ.trans σ) = (e.rename ρ).rename σ := by
  cases e with
  | literal | unresolved | name => rfl
  | paren e | unary _ e | conversion e | makeLength e => rw [Expr.rename, e.rename_trans]; rfl
  | assign left right | binary left _ right | index left right =>
    rw [Expr.rename, left.rename_trans, right.rename_trans]; rfl
  | call f arguments =>
    rw [Expr.rename, f.rename_trans, renameEach_trans arguments]; rfl
  | methodCall f receiver arguments =>
    rw [Expr.rename, f.rename_trans, receiver.rename_trans, renameEach_trans arguments]; rfl
  | makeElements elements => rw [Expr.rename, renameEach_trans elements]; rfl

lemma renameEach_trans (exprs : List Expr) :
    renameEach (ρ.trans σ) exprs = renameEach σ (renameEach ρ exprs) := by
  cases exprs with
  | nil => rfl
  | cons e rest => rw [renameEach, e.rename_trans, renameEach_trans rest]; rfl

end

lemma Stmt.rename_trans (stmt : Stmt) :
    stmt.rename (ρ.trans σ) = (stmt.rename ρ).rename σ := by
  induction stmt using Stmt.structural with
  | declare v initializer =>
    cases initializer with
    | none => rfl
    | some => simp only [Stmt.rename, Option.map_some, Expr.rename_trans]; rfl
  | ret value =>
    cases value with
    | none => rfl
    | some => simp only [Stmt.rename, Option.map_some, Expr.rename_trans]
  | whileLoop _ _ _ ih | loop _ _ _ _ ih | ifThen _ _ ih =>
    rw [Stmt.rename, Expr.rename_trans, ih]; rfl
  | forLoop initial condition action body labels ihi iha ihb =>
    rw [Stmt.rename, Expr.rename_trans, ihi, iha, ihb]; rfl
  | fromTo iterator lower upper body labels ih =>
    rw [Stmt.rename, Expr.rename_trans, Expr.rename_trans, ih]; rfl
  | block stmts ih =>
    simp only [Stmt.rename, renameAll_eq_map, List.map_map, Stmt.block.injEq]
    exact List.map_congr_left ih
  | expr value | gotoIf condition label => rw [Stmt.rename, Expr.rename_trans]; rfl
  | ifElse condition thenBranch elseBranch iht ihe =>
    rw [Stmt.rename, Expr.rename_trans, iht, ihe]; rfl
  | _ => rfl

lemma Body.rename_trans (body : Body) : body.rename (ρ.trans σ) = (body.rename ρ).rename σ := by
  cases body with
  | structured => rw [Body.rename, Stmt.rename_trans]; rfl
  | lowered =>
    simp only [Body.rename, Array.map_map, Body.lowered.injEq]
    exact Array.map_congr_left fun stmt _ => stmt.rename_trans ρ σ

lemma Function.rename_trans (f : Function) :
    f.rename (ρ.trans σ) = (f.rename ρ).rename σ := by
  simp only [Function.rename, FunctionSymbol.rename_trans, Body.rename_trans, Option.map_map]
  rfl

end Code

lemma Pending.rename_trans (f : Pending) : f.rename (ρ.trans σ) = (f.rename ρ).rename σ := by
  simp only [Pending.rename, FunctionSymbol.rename_trans]
  rfl

end Trans

end Parcel
