import Mathlib.Data.List.Perm.Subperm
import Parcel.Proofs.Code.Fresh

/-!
# Scopes of structured code

A declaration is visible to the statements after it in its block. In a `for` loop the variable of
the initial statement is visible to the whole loop, and that of the action to the body.
-/

namespace Parcel.Code

open List

variable {visible visible' vars vars' : List Var} {stmt part : Stmt}

/-! ### Variables of expressions -/

/-- What an expression touches: a variable, or a function with so many arguments. -/
inductive Access where
  | read (var : Var)
  | write (var : Var)
  | call (function : FunctionSymbol) (count : Nat)

/-- The variable that is touched. -/
def Access.var? : Access → Option Var
  | .read v | .write v => some v
  | .call _ _ => none

/-- The variable that is touched, if it is one, is visible. -/
def Access.Within (visible : List Var) (a : Access) : Prop :=
  ∀ v ∈ a.var?, v ∈ visible

mutual

/-- What an expression touches, in the order of its evaluation. -/
def Expr.accesses : Expr → List Access
  | .literal _ _ | .unresolved _ => []
  | .name v _ => [.read v]
  | .assign (.name v _) value _ => value.accesses ++ [.write v]
  | .assign target value _ => target.accesses ++ value.accesses
  | .paren operand _ | .unary _ operand _ _ | .conversion operand _ _
  | .makeLength operand _ _ => operand.accesses
  | .binary left _ right _ _ | .index left right _ _ => left.accesses ++ right.accesses
  | .makeElements operands _ _ => accessesAll operands
  | .call f arguments _ => accessesAll arguments ++ [.call f arguments.length]
  | .methodCall f receiver arguments _ =>
    receiver.accesses ++ (accessesAll arguments ++ [.call f arguments.length])

/-- What expressions touch. -/
def accessesAll : List Expr → List Access
  | [] => []
  | e :: rest => e.accesses ++ accessesAll rest

end

@[simp] lemma accesses_withSpan (span : Span) (e : Expr) :
    (e.withSpan span).accesses = e.accesses := by
  cases e with
  | assign target => cases target <;> rfl
  | _ => simp only [Expr.withSpan, Expr.accesses]

lemma mem_accessesAll {es : List Expr} {a : Access} :
    a ∈ accessesAll es ↔ ∃ e ∈ es, a ∈ e.accesses := by
  induction es with
  | nil => simp [accessesAll]
  | cons e es ih => simp [accessesAll, ih]

lemma var_mem_of_mem_accesses_assign {target value : Expr} {span : Span} {a : Access}
    (h : a ∈ (Expr.assign target value span).accesses) :
    (∃ b ∈ target.accesses, b.var? = a.var?) ∨ a ∈ value.accesses := by
  cases target with
  | name v =>
    rcases mem_append.mp h with h | h
    · exact .inr h
    · obtain rfl := mem_singleton.mp h
      exact .inl ⟨.read v, mem_cons_self, rfl⟩
  | _ =>
    rcases mem_append.mp h with h | h
    · exact .inl ⟨a, h, rfl⟩
    · exact .inr h

/-! ### Variables of statements -/

/-- The expressions that stand in a statement itself. -/
def Stmt.ownExprs : Stmt → List Expr
  | .declare _ (some e) | .ret (some e) | .expr e | .gotoIf e _ => [e]
  | .whileLoop condition _ _ | .forLoop _ condition _ _ _ | .ifElse condition _ _ => [condition]
  | .fromTo _ lower upper _ _ => [lower, upper]
  | .loop _ count _ _ => [count]
  | .declare _ none | .ret none | .block _ | .label _ | .goto _ | .delete _ | .approach _ _ => []

/-- What a statement touches itself. -/
def Stmt.ownAccesses : Stmt → List Access
  | .declare _ (some e) | .ret (some e) | .expr e | .gotoIf e _ => e.accesses
  | .whileLoop condition _ _ | .forLoop _ condition _ _ _ | .ifElse condition _ _ =>
    condition.accesses
  | .fromTo _ lower upper _ _ => upper.accesses ++ lower.accesses
  | .loop _ count _ _ => count.accesses
  | .approach v target => [.read v, .read target, .write v]
  | .declare _ none | .ret none | .block _ | .label _ | .goto _ | .delete _ => []

/-- What a statement touches. -/
def Stmt.accesses (stmt : Stmt) : List Access :=
  stmt.parts.flatMap Stmt.ownAccesses

/-- The variable that a statement declares for those after it. -/
def Stmt.own (stmt : Stmt) : List Var :=
  (declared? stmt).toList

/-- The expression touches only variables that are visible. -/
def Expr.Within (visible : List Var) (e : Expr) : Prop :=
  ∀ a ∈ e.accesses, a.Within visible

mutual

/-- The statement touches only variables that are visible where it touches them. -/
def Stmt.Scoped : Stmt → List Var → Prop
  | .declare _ (some e), visible | .ret (some e), visible | .expr e, visible
  | .gotoIf e _, visible => e.Within visible
  | .whileLoop condition body _, visible => condition.Within visible ∧ body.Scoped visible
  | .forLoop initial condition action body _, visible =>
    initial.Scoped visible ∧ condition.Within (initial.own ++ visible) ∧
      action.Scoped (initial.own ++ visible) ∧ body.Scoped (action.own ++ (initial.own ++ visible))
  | .fromTo iterator lower upper body _, visible =>
    lower.Within visible ∧ upper.Within visible ∧ body.Scoped (iterator :: visible)
  | .loop _ count body _, visible => count.Within visible ∧ body.Scoped visible
  | .block stmts, visible => ScopedAll stmts visible
  | .ifElse condition branch none, visible => condition.Within visible ∧ branch.Scoped visible
  | .ifElse condition first (some second), visible =>
    condition.Within visible ∧ first.Scoped visible ∧ second.Scoped visible
  | .approach v target, visible => v ∈ visible ∧ target ∈ visible
  | .declare _ none, _ | .ret none, _ | .label _, _ | .goto _, _ | .delete _, _ => True

/-- Each statement touches only variables that are visible or declared by those before it. -/
def ScopedAll : List Stmt → List Var → Prop
  | [], _ => True
  | stmt :: stmts, visible => stmt.Scoped visible ∧ ScopedAll stmts (stmt.own ++ visible)

end

lemma Expr.Within.mono {e : Expr} (h : e.Within visible) (hsub : visible ⊆ visible') :
    e.Within visible' :=
  fun a ha v hv => hsub (h a ha v hv)

lemma own_append_subset (stmt : Stmt) (hsub : visible ⊆ visible') :
    stmt.own ++ visible ⊆ stmt.own ++ visible' :=
  append_subset_of_subset_of_subset (subset_append_left _ _)
    (List.Subset.trans hsub (subset_append_right _ _))

mutual

lemma Stmt.Scoped.mono {visible visible' : List Var} (hsub : visible ⊆ visible') :
    ∀ {stmt : Stmt}, stmt.Scoped visible → stmt.Scoped visible'
  | .declare _ (some _), h | .ret (some _), h | .expr _, h | .gotoIf _ _, h => Expr.Within.mono h hsub
  | .whileLoop _ _ _, h | .loop _ _ _ _, h | .ifElse _ _ none, h =>
    ⟨h.1.mono hsub, h.2.mono hsub⟩
  | .forLoop initial _ action _ _, h =>
    have inner := own_append_subset initial hsub
    ⟨h.1.mono hsub, h.2.1.mono inner, h.2.2.1.mono inner,
      h.2.2.2.mono (own_append_subset action inner)⟩
  | .fromTo iterator _ _ _ _, h =>
    ⟨h.1.mono hsub, h.2.1.mono hsub, h.2.2.mono (cons_subset_cons iterator hsub)⟩
  | .block _, h => ScopedAll.mono hsub h
  | .ifElse _ _ (some _), h => ⟨h.1.mono hsub, h.2.1.mono hsub, h.2.2.mono hsub⟩
  | .approach _ _, h => ⟨hsub h.1, hsub h.2⟩
  | .declare _ none, _ | .ret none, _ | .label _, _ | .goto _, _ | .delete _, _ => trivial

lemma ScopedAll.mono {visible visible' : List Var} (hsub : visible ⊆ visible') :
    ∀ {stmts : List Stmt}, ScopedAll stmts visible → ScopedAll stmts visible'
  | [], _ => trivial
  | stmt :: _, h =>
    ⟨h.1.mono hsub, ScopedAll.mono (own_append_subset stmt hsub) h.2⟩

end

/-! ### Touched variables are visible or introduced -/

lemma own_sublist_vars (stmt : Stmt) : stmt.own.Sublist stmt.vars := by
  cases stmt with
  | declare => exact List.Sublist.refl _
  | _ => exact nil_sublist _

lemma own_subset_vars (stmt : Stmt) : stmt.own ⊆ stmt.vars :=
  (own_sublist_vars stmt).subset

@[simp] lemma accesses_block (stmts : List Stmt) :
    (Stmt.block stmts).accesses = stmts.flatMap Stmt.accesses :=
  flatMap_parts_block (fun _ => rfl) stmts

lemma accesses_of_isLowered (h : stmt.isLowered = true) : stmt.accesses = stmt.ownAccesses := by
  simp [Stmt.accesses, parts_of_isLowered h]

section Structured

variable (condition lower upper : Expr) (body initial action first second : Stmt)
  (labels : LoopLabels) (iterator : Var)

@[simp] lemma accesses_whileLoop : (Stmt.whileLoop condition body labels).accesses =
    condition.accesses ++ body.accesses := by
  simp [Stmt.accesses, Stmt.parts, Stmt.ownAccesses]

@[simp] lemma accesses_forLoop : (Stmt.forLoop initial condition action body labels).accesses =
    condition.accesses ++ (initial.accesses ++ (action.accesses ++ body.accesses)) := by
  simp [Stmt.accesses, Stmt.parts, Stmt.ownAccesses]

@[simp] lemma accesses_fromTo : (Stmt.fromTo iterator lower upper body labels).accesses =
    upper.accesses ++ (lower.accesses ++ body.accesses) := by
  simp [Stmt.accesses, Stmt.parts, Stmt.ownAccesses]

@[simp] lemma accesses_ifThen : (Stmt.ifElse condition body none).accesses =
    condition.accesses ++ body.accesses := by
  simp [Stmt.accesses, Stmt.parts, Stmt.ownAccesses]

@[simp] lemma accesses_ifElse : (Stmt.ifElse condition first (some second)).accesses =
    condition.accesses ++ (first.accesses ++ second.accesses) := by
  simp [Stmt.accesses, Stmt.parts, Stmt.ownAccesses]

end Structured

lemma var_mem_of_isLowered (hlow : stmt.isLowered = true) (h : stmt.Scoped visible) :
    ∀ a ∈ stmt.accesses, a.Within visible := by
  rw [accesses_of_isLowered hlow]
  cases stmt with
  | declare _ value | ret value =>
    cases value with
    | none => exact fun a ha => nomatch ha
    | some => exact h
  | expr e | gotoIf e target => exact h
  | label | goto | delete => exact fun a ha => nomatch ha
  | approach =>
    intro a ha
    simp only [Stmt.ownAccesses, mem_cons, not_mem_nil, or_false] at ha
    rcases ha with rfl | rfl | rfl
    · rintro _ ⟨⟩
      exact h.1
    · rintro _ ⟨⟩
      exact h.2
    · rintro _ ⟨⟩
      exact h.1
  | block | ifElse | whileLoop | forLoop | fromTo | loop => cases hlow

/-- A statement touches itself only what is visible before it or introduced in it. -/
lemma own_within_of_scoped (h : stmt.Scoped visible) :
    ∀ a ∈ stmt.ownAccesses, a.Within (stmt.vars ++ visible) := by
  have hright {vars visible : List Var} : visible ⊆ vars ++ visible := subset_append_right _ _
  cases stmt with
  | declare | ret | expr | gotoIf | label | goto | delete | approach =>
    rw [← accesses_of_isLowered rfl]
    exact fun a ha v hv => hright (var_mem_of_isLowered rfl h a ha v hv)
  | block => exact fun a ha => absurd ha not_mem_nil
  | whileLoop | loop => exact h.1.mono hright
  | forLoop initial =>
    refine h.2.1.mono (append_subset.mpr ⟨fun v hv => ?_, hright⟩)
    rw [vars_forLoop]
    exact mem_append_left _ (mem_append_left _ (own_subset_vars initial hv))
  | fromTo => exact forall_mem_append.mpr ⟨h.2.1.mono hright, h.1.mono hright⟩
  | ifElse condition first second =>
    cases second with
    | none | some => exact h.1.mono hright

/-! ### What a part sees -/

/-- A part is scoped in what is visible and some more variables, which are among `vars` besides its
own. -/
def Sees (visible : List Var) (part : Stmt) (vars : List Var) : Prop :=
  ∃ outer, part.Scoped (outer ++ visible) ∧ (outer ++ part.vars).Subperm vars

lemma Sees.after {own : List Var} (h : Sees (own ++ visible) part vars) (hown : own.Subperm vars') :
    Sees visible part (vars' ++ vars) := by
  obtain ⟨outer, hpart, hsub⟩ := h
  refine ⟨outer ++ own, by rwa [append_assoc], ?_⟩
  have hperm : (outer ++ own ++ part.vars).Perm (own ++ (outer ++ part.vars)) := by
    rw [← append_assoc]
    exact perm_append_comm.append_right _
  exact hperm.subperm.trans (hown.append hsub)

lemma Sees.mono (h : Sees visible part vars) (hvars : vars.Subperm vars') :
    Sees visible part vars' := by
  obtain ⟨outer, hpart, hsub⟩ := h
  exact ⟨outer, hpart, hsub.trans hvars⟩

lemma sees_of_scopedAll {stmts : List Stmt} (h : ScopedAll stmts visible) (hpart : part ∈ stmts) :
    Sees visible part (stmts.flatMap Stmt.vars) := by
  induction stmts generalizing visible with
  | nil => exact absurd hpart not_mem_nil
  | cons stmt stmts ih =>
    rcases mem_cons.mp hpart with rfl | hpart
    · exact ⟨[], h.1, (sublist_append_left _ _).subperm⟩
    · exact (ih h.2 hpart).after (own_sublist_vars stmt).subperm

/-- A statement directly inside another is scoped in what is introduced before it. -/
lemma sees_child {child : Stmt} (h : stmt.Scoped visible) (hchild : child ∈ stmt.children) :
    Sees visible child stmt.vars := by
  have hself {stmt : Stmt} {visible : List Var} (h : stmt.Scoped visible) :
      Sees visible stmt stmt.vars :=
    ⟨[], h, List.Subperm.refl _⟩
  cases stmt with
  | declare | ret | expr | label | goto | gotoIf | delete | approach =>
    exact absurd hchild not_mem_nil
  | block stmts => exact vars_block stmts ▸ sees_of_scopedAll h hchild
  | whileLoop condition body labels =>
    obtain rfl := mem_singleton.mp hchild
    exact vars_whileLoop condition child labels ▸ hself h.2
  | forLoop initial condition action =>
    rw [vars_forLoop]
    simp only [Stmt.children, mem_cons, not_mem_nil, or_false] at hchild
    have hinitial := (own_sublist_vars initial).subperm
    rcases hchild with rfl | rfl | rfl
    · exact (hself h.1).mono (sublist_append_left _ _).subperm
    · exact ((hself h.2.2.1).mono (sublist_append_left _ _).subperm).after hinitial
    · exact ((hself h.2.2.2).after (own_sublist_vars action).subperm).after hinitial
  | fromTo iterator =>
    obtain rfl := mem_singleton.mp hchild
    rw [vars_fromTo]
    exact ⟨[iterator], h.2.2, List.Subperm.refl _⟩
  | loop =>
    obtain rfl := mem_singleton.mp hchild
    rw [vars_loop]
    exact (hself h.2).mono (sublist_cons_self _ _).subperm
  | ifElse condition first second =>
    cases second with
    | none =>
      obtain rfl := mem_singleton.mp hchild
      exact vars_ifThen condition child ▸ hself h.2
    | some =>
      rw [vars_ifElse]
      rcases mem_pair.mp hchild with rfl | rfl
      · exact (hself h.2.1).mono (sublist_append_left _ _).subperm
      · exact (hself h.2.2).mono (sublist_append_right _ _).subperm

/-- **A part is scoped** in what is visible before the whole and what is introduced around it. -/
theorem scoped_of_mem_parts (stmt : Stmt) (h : stmt.Scoped visible) (hpart : part ∈ stmt.parts) :
    Sees visible part stmt.vars := by
  refine Stmt.part_induct (P := fun stmt => ∀ {visible}, stmt.Scoped visible →
    Sees visible part stmt.vars) ?_ ?_ stmt hpart h
  · exact fun h => ⟨[], h, List.Subperm.refl _⟩
  · intro stmt child hchild ih visible h
    obtain ⟨outer, hscoped, hsub⟩ := sees_child h hchild
    exact ((ih hscoped).after (List.Subperm.refl outer)).mono hsub

/-- A variable that a statement touches is visible before it or introduced in it. -/
lemma var_mem_of_scoped (h : stmt.Scoped visible) :
    ∀ a ∈ stmt.accesses, ∀ v ∈ a.var?, v ∈ visible ∨ v ∈ stmt.vars := by
  intro a ha v hv
  obtain ⟨part, hpart, ha⟩ := mem_flatMap.mp ha
  obtain ⟨outer, hscoped, hsub⟩ := scoped_of_mem_parts stmt h hpart
  have hmem := own_within_of_scoped hscoped a ha v hv
  rw [← append_assoc, mem_append, mem_append, or_comm (a := v ∈ part.vars),
    ← mem_append] at hmem
  exact hmem.symm.imp_right fun h => hsub.subset h

end Parcel.Code
