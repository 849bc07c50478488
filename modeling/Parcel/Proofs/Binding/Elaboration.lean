import Parcel.Proofs.Binding.Stmt

/-!
# Elaboration

What the syntax of a body means, as far as names, scopes and loops go, is said as a judgement
without the binder: a statement sees the variables that are declared before it in the scopes around
it, and a jump out of a loop goes to the labels of the innermost one around it. Binding follows the
judgement, also where it reports errors. So a bound body touches only variables that are visible,
and its jumps lead to the ends of the loops around them.
-/

namespace Parcel

open Code BindM List

variable {s : Scopes} {stx : Syntax.Expr} {target : Ty} {b b' : Binder}

/-! ### Scopes -/

/-- The variables visible in nested scopes, those that are hidden by others included. -/
def Scopes.visible (s : Scopes) : List Var :=
  s.chain.flatten

lemma Scopes.mem_visible_of_lookup? {s : Scopes} {name : String} {v : Var}
    (h : s.lookup? name = some v) : v ∈ s.visible := by
  obtain ⟨scope, hscope, hfind⟩ := exists_of_findSome?_eq_some h
  exact mem_flatten.mpr ⟨scope, hscope, mem_of_find?_eq_some hfind⟩

namespace Scopes

variable {vars : List Var} {s s' : Scopes} {v : Var}

/-- Scopes with more variables in the innermost one. -/
def extend (s : Scopes) (vars : List Var) : Scopes :=
  match s.chain with
  | [] => s
  | inner :: outer => ⟨(inner ++ vars) :: outer⟩

@[simp] lemma extend_nil (s : Scopes) : s.extend [] = s := by
  obtain ⟨- | ⟨inner, outer⟩⟩ := s <;> simp [extend]

lemma extend_extend (s : Scopes) (vars vars' : List Var) :
    (s.extend vars).extend vars' = s.extend (vars ++ vars') := by
  obtain ⟨- | ⟨inner, outer⟩⟩ := s <;> simp [extend]

lemma chain_extend_ne (h : s.chain ≠ []) (vars : List Var) : (s.extend vars).chain ≠ [] := by
  obtain ⟨- | ⟨inner, outer⟩⟩ := s
  · exact absurd rfl h
  · exact cons_ne_nil _ _

lemma pop_extend_push (h : s.chain ≠ []) (vars : List Var) : (s.push.extend vars).pop = s := by
  obtain ⟨- | ⟨inner, outer⟩⟩ := s
  · exact absurd rfl h
  · rfl

/-- Leaving a scope that was entered gives the scopes before it. -/
lemma pop_eq_of_extend (h : s.chain ≠ []) (hs' : s' = s.push.extend vars) :
    s'.pop = s.extend [] := by
  rw [hs', pop_extend_push h, extend_nil]

lemma visible_extend_subset (s : Scopes) (vars : List Var) :
    (s.extend vars).visible ⊆ vars ++ s.visible := by
  obtain ⟨- | ⟨inner, outer⟩⟩ := s
  · exact nil_subset _
  · intro v hv
    simp only [extend, visible, flatten_cons, mem_append] at hv ⊢
    exact (or_assoc.trans or_left_comm).mp hv

lemma mem_visible_extend (h : s.chain ≠ []) :
    v ∈ (s.extend vars).visible ↔ v ∈ vars ++ s.visible := by
  obtain ⟨- | ⟨inner, outer⟩⟩ := s
  · exact absurd rfl h
  · simp only [extend, visible, flatten_cons, mem_append]
    exact or_assoc.trans or_left_comm

lemma eq_extend_of_declare? (h : s.declare? v = some s') : s' = s.extend [v] := by
  obtain ⟨- | ⟨inner, outer⟩⟩ := s
  · cases h
  · simp only [declare?] at h
    split at h
    · cases h
    · exact (Option.some.inj h).symm

end Scopes

/-! ### What names refer to -/

namespace Scopes

/-- The name refers to the variable: the innermost scope that has a variable of this name has it as
the first one. -/
def Refers (s : Scopes) (name : String) (v : Var) : Prop :=
  ∃ closer scope farther, s.chain = closer ++ scope :: farther ∧
    (∀ inner ∈ closer, ∀ w ∈ inner, w.name ≠ name) ∧ scope.find? (·.name = name) = some v

/-- The innermost scope has a variable of the name. -/
def Holds (s : Scopes) (name : String) : Prop :=
  ∃ inner outer, s.chain = inner :: outer ∧ ∃ v ∈ inner, v.name = name

lemma lookup?_eq_some_iff {name : String} {v : Var} :
    s.lookup? name = some v ↔ s.Refers name v := by
  have hnone (scope : List Var) :
      scope.find? (·.name = name) = none ↔ ∀ w ∈ scope, w.name ≠ name := by simp
  rw [lookup?, findSome?_eq_some_iff]
  constructor
  · rintro ⟨closer, scope, farther, hchain, hfind, hcloser⟩
    exact ⟨closer, scope, farther, hchain, fun inner hinner => (hnone inner).mp (hcloser inner hinner),
      hfind⟩
  · rintro ⟨closer, scope, farther, hchain, hcloser, hfind⟩
    exact ⟨closer, scope, farther, hchain, hfind,
      fun inner hinner => (hnone inner).mpr (hcloser inner hinner)⟩

/-- A variable is declared unless the innermost scope has one of its name. -/
lemma not_holds_of_declare? {s' : Scopes} {v : Var} (h : s.declare? v = some s') :
    ¬ s.Holds v.name := by
  rintro ⟨inner, outer, hchain, w, hw, hname⟩
  have hany : inner.any (·.name = v.name) = true :=
    any_eq_true.mpr ⟨w, hw, decide_eq_true hname⟩
  rw [declare?, hchain] at h
  simp only [hany, if_true] at h
  cases h

lemma holds_of_declare?_eq_none {v : Var} (hs : s.chain ≠ []) (h : s.declare? v = none) :
    s.Holds v.name := by
  obtain ⟨- | ⟨inner, outer⟩⟩ := s
  · exact absurd rfl hs
  · simp only [declare?] at h
    split at h
    next hany =>
      obtain ⟨w, hw, hname⟩ := any_eq_true.mp hany
      exact ⟨inner, outer, rfl, w, hw, of_decide_eq_true hname⟩
    · cases h

end Scopes

/-! ### Expressions -/

/-- An expression in the place of its syntax, where names refer to what they refer to in nested
scopes. Every expression may be left unresolved, and conversions may be put in. -/
inductive Elaborates (s : Scopes) : Syntax.Expr → Expr → Prop
  | unresolved {stx : Syntax.Expr} (span : Span) : Elaborates s stx (.unresolved span)
  | converted {stx e} (type : Ty) (span : Span) : Elaborates s stx e →
    Elaborates s stx (.conversion e type span)
  | literal (value : Syntax.Literal) (constant : Constant) (span : Span) :
    Elaborates s (.literal value span) (.literal constant span)
  | name {text v} (span : Span) : s.Refers text v → Elaborates s (.name text span) (.name v span)
  | paren {inner e} (span : Span) : Elaborates s inner e →
    Elaborates s (.paren inner span) (.paren e span)
  | assign {target value t e} (span : Span) : Elaborates s target t → Elaborates s value e →
    Elaborates s (.assign target value span) (.assign t e span)
  | unary {operand e} (op : Syntax.UnaryOp) (op' : UnaryOp) (type : Ty) (span : Span) :
    Elaborates s operand e → Elaborates s (.unary op operand span) (.unary op' e type span)
  | binary {left right l r} (op : Syntax.BinaryOp) (op' : BinaryOp) (type : Ty) (span : Span) :
    Elaborates s left l → Elaborates s right r →
    Elaborates s (.binary left op right span) (.binary l op' r type span)
  | conversion {operand e} (name : Name) (span : Span) : Elaborates s operand e →
    Elaborates s (.call none name [operand] span) (e.withSpan span)
  | call {arguments es} (package : Option Name) (name : Name) (f : FunctionSymbol) (span : Span) :
    arguments.length = es.length → (∀ p ∈ arguments.zip es, Elaborates s p.1 p.2) →
    Elaborates s (.call package name arguments span) (.call f es span)
  | methodCall {receiver r arguments es} (name : Name) (f : FunctionSymbol) (span : Span) :
    Elaborates s receiver r → arguments.length = es.length →
    (∀ p ∈ arguments.zip es, Elaborates s p.1 p.2) →
    Elaborates s (.methodCall receiver name arguments span) (.methodCall f r es span)
  | makeLength {length e} (clause : Syntax.TypeClause) (type : Ty) (span : Span) :
    Elaborates s length e →
    Elaborates s (.makeArray clause (some length) none span) (.makeLength e type span)
  | makeElements {elements es} (clause : Syntax.TypeClause) (type : Ty) (span : Span) :
    elements.length = es.length → (∀ p ∈ elements.zip es, Elaborates s p.1 p.2) →
    Elaborates s (.makeArray clause none (some elements) span) (.makeElements es type span)
  | index {target index t e} (type : Ty) (span : Span) : Elaborates s target t →
    Elaborates s index e → Elaborates s (.index target index span) (.index t e type span)

lemma Elaborates.convert {e e' : Expr} {explicit : Bool} (h : Elaborates s stx e)
    (hrun : (Parcel.convert e target explicit).run b = (e', b')) : Elaborates s stx e' := by
  have hconverted : Elaborates s stx ((Parcel.convert e target explicit).run b).1 := by
    unfold Parcel.convert
    split
    · exact h
    split
    · exact .unresolved _
    split
    · exact h
    · exact .converted _ _ h
    · split
      · exact .converted _ _ h
      · exact .unresolved _
    · exact .unresolved _
  rwa [hrun] at hconverted

/-- **An elaborated expression touches only variables that are visible.** -/
theorem Elaborates.within {e : Expr} (h : Elaborates s stx e) : e.Within s.visible := by
  have each {stxs : List Syntax.Expr} {es : List Expr} (hlength : stxs.length = es.length)
      (ih : ∀ p ∈ stxs.zip es, p.2.Within s.visible) : ∀ a ∈ accessesAll es, a.Within s.visible := by
    intro a ha
    obtain ⟨e, he, ha⟩ := mem_accessesAll.mp ha
    rw [← map_snd_zip (Nat.le_of_eq hlength.symm)] at he
    obtain ⟨p, hp, rfl⟩ := mem_map.mp he
    exact ih p hp a ha
  have called (f : FunctionSymbol) (count : Nat) : ∀ a ∈ [Access.call f count], a.Within s.visible :=
    forall_mem_singleton.mpr fun v hv => nomatch hv
  induction h with
  | unresolved | literal => exact forall_mem_nil _
  | converted _ _ _ ih | paren _ _ ih | unary _ _ _ _ _ ih | makeLength _ _ _ _ ih => exact ih
  | name span hrefers =>
    refine forall_mem_singleton.mpr fun _ hv => ?_
    cases hv
    exact Scopes.mem_visible_of_lookup? (Scopes.lookup?_eq_some_iff.mpr hrefers)
  | assign span _ _ iht ihv =>
    intro a ha
    rcases var_mem_of_mem_accesses_assign ha with ⟨b, hb, hvar⟩ | ha
    · rw [Access.Within, ← hvar]
      exact iht b hb
    · exact ihv a ha
  | binary _ _ _ _ _ _ ih₁ ih₂ | index _ _ _ _ ih₁ ih₂ => exact forall_mem_append.mpr ⟨ih₁, ih₂⟩
  | conversion name span _ ih =>
    rw [Expr.Within, accesses_withSpan]
    exact ih
  | call package name f span hlength _ ih =>
    exact forall_mem_append.mpr ⟨each hlength ih, called f _⟩
  | methodCall name f span _ hlength _ ihr ih =>
    exact forall_mem_append.mpr ⟨ihr, forall_mem_append.mpr ⟨each hlength ih, called f _⟩⟩
  | makeElements clause type span hlength _ ih => exact each hlength ih

/-- **Binding an expression follows the judgement.** -/
theorem elaborates_bindExpr {e : Expr} (h : (bindExpr stx).run b = (e, b')) :
    Elaborates b.scopes stx e := by
  suffices hbinds : b.Binds (bindExpr stx) b.errors fun e _ => Elaborates b.scopes stx e by
    obtain ⟨e', errs, hrun, helaborates⟩ := hbinds
    obtain ⟨rfl, -⟩ := Prod.mk.inj (hrun.symm.trans h)
    exact helaborates
  apply bindExpr_induct b (P := fun stx _ e _ => Elaborates b.scopes stx e)
    (Q := fun stxs _ _ es _ => stxs.length = es.length ∧
      ∀ p ∈ stxs.zip es, Elaborates b.scopes p.1 p.2)
  case failed => exact fun _ => .unresolved _
  case literal => exact fun _ => .literal _ _ _
  case name => exact fun h => .name _ (Scopes.lookup?_eq_some_iff.mp h)
  case paren => exact .paren _
  case assign => exact fun ht _ he hconvert => .assign _ ht (he.convert hconvert)
  case unary => exact fun h _ _ => .unary _ _ _ _ h
  case binary =>
    exact fun hl hr _ _ _ hconvert hconvert' =>
      .binary _ _ _ _ (hl.convert hconvert) (hr.convert hconvert')
  case conversion =>
    intro package name _ span _ _ _ _ _ _ htarget he hconvert
    cases package with
    | some _ => cases htarget
    | none => exact .conversion name span (he.convert hconvert)
  case call => exact fun _ _ hes => .call _ _ _ _ hes.1 hes.2
  case methodCall => exact fun hr _ _ _ hes => .methodCall _ _ _ hr hes.1 hes.2
  case makeLength => exact fun _ _ he hconvert => .makeLength _ _ _ (he.convert hconvert)
  case makeElements => exact fun _ _ hes => .makeElements _ _ _ hes.1 hes.2
  case index => exact fun ht _ he hconvert => .index _ _ ht (he.convert hconvert)
  case nil => exact ⟨rfl, forall_mem_nil _⟩
  case cons =>
    exact fun he hconvert hes =>
      ⟨congrArg (· + 1) hes.1, forall_mem_cons.mpr ⟨he.convert hconvert, hes.2⟩⟩

lemma elaborates_bindAs {e : Expr} (h : (bindAs stx target).run b = (e, b')) :
    Elaborates b.scopes stx e :=
  (elaborates_bindExpr rfl).convert h

lemma elaborates_bindVarDecl {decl : Syntax.VarDecl} {bound : Ty × Option Expr}
    (h : (bindVarDecl decl).run b = (bound, b')) :
    Option.Rel (Elaborates b.scopes) decl.initializer bound.2 := by
  obtain ⟨_, errs, hrun, hcases⟩ := bindVarDecl_cases decl b b.errors
  obtain ⟨rfl, -⟩ := Prod.mk.inj (hrun.symm.trans h)
  rcases hcases with ⟨hdecl, hinit, -⟩ | ⟨_, _, _, hdecl, -, hinit, -⟩ |
    ⟨_, _, _, hdecl, he, hinit, -⟩ | ⟨_, _, _, _, _, _, _, _, hdecl, -, he, hconvert, hinit, -⟩
  · rw [hdecl, hinit]
    exact .none
  · rw [hdecl, hinit]
    exact .none
  · rw [hdecl, hinit]
    exact .some (elaborates_bindExpr he)
  · rw [hdecl, hinit]
    exact .some ((elaborates_bindExpr he).convert hconvert)

lemma within_of_elaborates {init : Option Syntax.Expr} {initializer : Option Expr}
    (h : Option.Rel (Elaborates s) init initializer) : ∀ e ∈ initializer, e.Within s.visible := by
  cases h with
  | none => exact fun e he => nomatch he
  | some h =>
    rintro _ ⟨⟩
    exact h.within

/-! ### Statements -/

mutual

/-- A statement in the place of its syntax, in nested scopes and inside the loop with the given
labels, if there is one. -/
inductive ElaboratesStmt : Scopes → Option LoopLabels → Syntax.Stmt → Stmt → Prop
  /-- The initial value does not see the variable. -/
  | declaration {s loop decl v initializer} : v.name = decl.name.text → ¬ s.Holds v.name →
    Option.Rel (Elaborates s) decl.initializer initializer →
    ElaboratesStmt s loop (.declaration decl) (.declare v initializer)
  | duplicate {s loop decl} : s.Holds decl.name.text →
    ElaboratesStmt s loop (.declaration decl) (unresolvedStmt decl.span)
  | bareReturn {s loop} (span : Span) : ElaboratesStmt s loop (.ret none span) (.ret none)
  | valueReturn {s loop value e} (span : Span) : Elaborates s value e →
    ElaboratesStmt s loop (.ret (some value) span) (.ret (some e))
  | refusedReturn {s loop} (value : Option Syntax.Expr) (span : Span) :
    ElaboratesStmt s loop (.ret value span) (unresolvedStmt span)
  | expr {s loop value e} : Elaborates s value e → ElaboratesStmt s loop (.expr value) (.expr e)
  | breakLoop {s : Scopes} (labels : LoopLabels) (span : Span) :
    ElaboratesStmt s (some labels) (.breakLoop span) (.goto labels.onBreak)
  | strayBreak {s : Scopes} (span : Span) :
    ElaboratesStmt s none (.breakLoop span) (unresolvedStmt span)
  | continueLoop {s : Scopes} (labels : LoopLabels) (span : Span) :
    ElaboratesStmt s (some labels) (.continueLoop span) (.goto labels.onContinue)
  | strayContinue {s : Scopes} (span : Span) :
    ElaboratesStmt s none (.continueLoop span) (unresolvedStmt span)
  | block {s loop stmts ss} (span : Span) : ElaboratesAll s.push loop stmts ss →
    ElaboratesStmt s loop (.block stmts span) (.block ss)
  | ifThen {s loop condition branch c b} (span : Span) : Elaborates s condition c →
    ElaboratesStmt s.push loop branch b →
    ElaboratesStmt s loop (.ifElse condition branch none span) (.ifElse c b none)
  | ifElse {s loop condition first second c b₁ b₂} (span : Span) : Elaborates s condition c →
    ElaboratesStmt s.push loop first b₁ → ElaboratesStmt s.push loop second b₂ →
    ElaboratesStmt s loop (.ifElse condition first (some second) span) (.ifElse c b₁ (some b₂))
  | whileLoop {s loop condition body c b labels} (span : Span) : Elaborates s.push condition c →
    ElaboratesStmt s.push (some labels) body b →
    ElaboratesStmt s loop (.whileLoop condition body span) (.whileLoop c b labels)
  /-- The initial statement and the action belong to the loop around; the body sees what they
  declare. -/
  | forLoop {s loop condition initial action body c i a b labels} (span : Span) :
    ElaboratesStmt s.push loop initial i → Elaborates (s.push.extend i.own) condition c →
    ElaboratesStmt (s.push.extend i.own) loop action a →
    ElaboratesStmt ((s.push.extend i.own).extend a.own) (some labels) body b →
    ElaboratesStmt s loop (.forLoop initial condition action body span) (.forLoop i c a b labels)
  /-- The bounds do not see the iterator. -/
  | fromTo {s loop iterator lower upper body v l u b labels} (span : Span) :
    v.name = iterator.text → Elaborates s.push lower l → Elaborates s.push upper u →
    ElaboratesStmt (s.push.extend [v]) (some labels) body b →
    ElaboratesStmt s loop (.fromTo iterator lower upper body span) (.fromTo v l u b labels)
  /-- The iterator has no name in the source, so it is in no scope. -/
  | loop {s loop count body v n b labels} (span : Span) : Elaborates s.push count n →
    ElaboratesStmt s.push (some labels) body b →
    ElaboratesStmt s loop (.loop count body span) (.loop v n b labels)

/-- Statements in the place of their syntax; each one sees what those before it declare. -/
inductive ElaboratesAll : Scopes → Option LoopLabels → List Syntax.Stmt → List Stmt → Prop
  | nil {s loop} : ElaboratesAll s loop [] []
  | cons {s loop stx stxs stmt stmts} : ElaboratesStmt s loop stx stmt →
    ElaboratesAll (s.extend stmt.own) loop stxs stmts →
    ElaboratesAll s loop (stx :: stxs) (stmt :: stmts)

end

/-- What a statement declares was not in the innermost scope. -/
lemma ElaboratesStmt.not_holds {loop : Option LoopLabels} {stx : Syntax.Stmt} {stmt : Stmt}
    (h : ElaboratesStmt s loop stx stmt) : ∀ v ∈ stmt.own, ¬ s.Holds v.name := by
  cases h with
  | declaration _ hholds => exact forall_mem_singleton.mpr hholds
  | _ => exact forall_mem_nil _

mutual

/-- **An elaborated statement touches only variables that are visible.** -/
theorem ElaboratesStmt.scoped {s : Scopes} {loop : Option LoopLabels} {stx : Syntax.Stmt}
    {stmt : Stmt} (h : ElaboratesStmt s loop stx stmt) : stmt.Scoped s.visible := by
  cases h with
  | @declaration _ _ decl v initializer _ _ h =>
    have hinit := within_of_elaborates h
    cases initializer with
    | none => trivial
    | some e => exact hinit e rfl
  | duplicate | refusedReturn | strayBreak | strayContinue => exact forall_mem_nil _
  | bareReturn | breakLoop | continueLoop => trivial
  | valueReturn _ h | expr h => exact h.within
  | block _ h => exact h.scoped
  | ifThen _ hc h | whileLoop _ hc h | loop _ hc h => exact ⟨hc.within, h.scoped⟩
  | ifElse _ hc h₁ h₂ => exact ⟨hc.within, h₁.scoped, h₂.scoped⟩
  | forLoop _ hi hc ha hb =>
    have hinitial := s.push.visible_extend_subset
    exact ⟨hi.scoped, hc.within.mono (hinitial _), ha.scoped.mono (hinitial _), hb.scoped.mono
      (List.Subset.trans (Scopes.visible_extend_subset _ _) (own_append_subset _ (hinitial _)))⟩
  | fromTo _ _ hl hu h => exact ⟨hl.within, hu.within, h.scoped⟩

lemma ElaboratesAll.scoped {s : Scopes} {loop : Option LoopLabels} {stxs : List Syntax.Stmt}
    {stmts : List Stmt} (h : ElaboratesAll s loop stxs stmts) : ScopedAll stmts s.visible := by
  cases h with
  | nil => trivial
  | cons h hs => exact ⟨h.scoped, hs.scoped.mono (s.visible_extend_subset _)⟩

end

mutual

/-- **The jumps of an elaborated statement** lead to the ends of the loops around them. -/
theorem ElaboratesStmt.structured {s : Scopes} {loop : Option LoopLabels} {stx : Syntax.Stmt}
    {stmt : Stmt} (h : ElaboratesStmt s loop stx stmt) : Structured loop stmt := by
  cases h with
  | declaration => exact .declare _ _
  | duplicate | refusedReturn | strayBreak | strayContinue | expr => exact .expr _
  | bareReturn | valueReturn => exact .ret _
  | breakLoop labels => exact .onBreak labels
  | continueLoop labels => exact .onContinue labels
  | block _ h => exact .block h.structured
  | ifThen _ _ h => exact .ifThen _ h.structured
  | ifElse _ _ h₁ h₂ => exact .ifElse _ h₁.structured h₂.structured
  | whileLoop _ _ h => exact .whileLoop _ h.structured
  | forLoop _ hi _ ha hb => exact .forLoop _ hi.structured ha.structured hb.structured
  | fromTo _ _ _ _ h => exact .fromTo _ _ _ h.structured
  | loop _ _ h => exact .loop _ _ h.structured

lemma ElaboratesAll.structured {s : Scopes} {loop : Option LoopLabels} {stxs : List Syntax.Stmt}
    {stmts : List Stmt} (h : ElaboratesAll s loop stxs stmts) :
    ∀ stmt ∈ stmts, Structured loop stmt := by
  cases h with
  | nil => exact forall_mem_nil _
  | cons h hs => exact forall_mem_cons.mpr ⟨h.structured, hs.structured⟩

end

lemma Refused.elaborates {loops : Option LoopLabels} {stx : Syntax.Stmt} {span : Span}
    (h : Refused s loops stx span) (hs : s.chain ≠ []) :
    ElaboratesStmt s loops stx (unresolvedStmt span) := by
  rcases h with ⟨decl, v, rfl, rfl, hname, hdeclare⟩ | ⟨value, rfl⟩ | ⟨rfl, rfl | rfl⟩
  · exact .duplicate (hname ▸ Scopes.holds_of_declare?_eq_none hs hdeclare)
  · exact .refusedReturn value span
  · exact .strayBreak span
  · exact .strayContinue span

/-- **Binding a statement follows the judgement**, whether or not errors are reported, and leaves
the scopes but for the variable that the statement declares. -/
theorem elaborates_bindStmt (b : Binder) (stx : Syntax.Stmt) (loops : List LoopLabels) (p : Progress)
    (hp : p.scopes.chain ≠ []) :
    b.Walks loops (bindStmt stx) p fun stmt p' => p'.scopes = p.scopes.extend stmt.own ∧
      ElaboratesStmt p.scopes loops.head? stx stmt := by
  have hpush (s : Scopes) : s.push.chain ≠ [] := cons_ne_nil _ _
  have hkept (s : Scopes) : s = s.extend [] := s.extend_nil.symm
  refine (bindStmt_induct b
    (P := fun loops stx p stmt p' => p.scopes.chain ≠ [] →
      p'.scopes = p.scopes.extend stmt.own ∧ ElaboratesStmt p.scopes loops.head? stx stmt)
    (Q := fun loops stxs p stmts p' => p.scopes.chain ≠ [] →
      p'.scopes = p.scopes.extend (stmts.flatMap Stmt.own) ∧
        ElaboratesAll p.scopes loops.head? stxs stmts)
    ?failed ?declare ?bareReturn ?valueReturn ?expr ?breakLoop ?continueLoop ?block ?ifThen ?ifElse
    ?whileLoop ?forLoop ?fromTo ?loop ?nil ?cons stx loops p).mono fun _ _ h => h hp
  case failed => exact fun hwhy _ _ hp => ⟨hkept _, hwhy.elaborates hp⟩
  case declare =>
    intro _ decl p _ _ _ _ hdecl hscopes hp
    exact ⟨Scopes.eq_extend_of_declare? hscopes,
      .declaration rfl (Scopes.not_holds_of_declare? hscopes) (elaborates_bindVarDecl hdecl)⟩
  case bareReturn => exact fun _ _ => ⟨hkept _, .bareReturn _⟩
  case valueReturn =>
    exact fun hrun _ _ _ _ => ⟨hkept _, .valueReturn _ (elaborates_bindExpr hrun)⟩
  case expr =>
    exact fun hrun _ _ => ⟨hkept _, .expr (elaborates_bindExpr hrun)⟩
  case breakLoop => exact fun _ => ⟨hkept _, .breakLoop _ _⟩
  case continueLoop => exact fun _ => ⟨hkept _, .continueLoop _ _⟩
  case block =>
    intro _ _ span p _ _ h hp
    obtain ⟨hscopes, hstmts⟩ := h (hpush _)
    exact ⟨Scopes.pop_eq_of_extend hp hscopes, .block span hstmts⟩
  case ifThen =>
    intro _ _ _ span p _ _ _ _ hc h hp
    obtain ⟨hscopes, hbranch⟩ := h (hpush _)
    exact ⟨Scopes.pop_eq_of_extend hp hscopes, .ifThen span (elaborates_bindAs hc) hbranch⟩
  case ifElse =>
    intro _ _ _ _ span p _ _ _ p₁ _ _ hc h₁ h₂ hp
    obtain ⟨hscopes₁, hfirst⟩ := h₁ (hpush _)
    obtain ⟨hscopes₂, hsecond⟩ := h₂ (hpush _)
    -- the scope of the first branch is left again
    have hpop : p₁.scopes.pop = p.scopes :=
      (Scopes.pop_eq_of_extend hp hscopes₁).trans p.scopes.extend_nil
    simp only [Progress.scopes_within, hpop] at hscopes₂ hsecond
    exact ⟨Scopes.pop_eq_of_extend hp hscopes₂, .ifElse span (elaborates_bindAs hc) hfirst hsecond⟩
  case whileLoop =>
    intro _ _ _ span p _ _ _ _ hc h hp
    obtain ⟨hscopes, hbody⟩ := h (hpush _)
    exact ⟨Scopes.pop_eq_of_extend hp hscopes, .whileLoop span (elaborates_bindAs hc) hbody⟩
  case forLoop =>
    intro _ _ _ _ _ span p i p₁ c _ a p₂ b p₃ hi hc ha hb hp
    obtain ⟨hscopes₁, hinitial⟩ := hi (hpush _)
    have hne₁ : p₁.scopes.chain ≠ [] := hscopes₁ ▸ Scopes.chain_extend_ne (hpush _) _
    obtain ⟨hscopes₂, haction⟩ := ha hne₁
    obtain ⟨hscopes₃, hbody⟩ := hb (hscopes₂ ▸ Scopes.chain_extend_ne hne₁ _)
    have hcondition : Elaborates p₁.scopes _ c := elaborates_bindAs hc
    simp only [hscopes₂, Progress.scopes_reported, hscopes₁, Progress.scopes_within]
      at hscopes₃ hbody haction hcondition
    rw [Scopes.extend_extend, Scopes.extend_extend] at hscopes₃
    exact ⟨Scopes.pop_eq_of_extend hp hscopes₃, .forLoop span hinitial hcondition haction hbody⟩
  case fromTo =>
    intro _ _ _ _ _ span p _ _ _ _ _ _ hl hu h hp
    obtain ⟨hscopes, hbody⟩ := h (cons_ne_nil _ _)
    exact ⟨Scopes.pop_eq_of_extend hp hscopes,
      .fromTo span rfl (elaborates_bindAs hl) (elaborates_bindAs hu) hbody⟩
  case loop =>
    intro _ _ _ span p _ _ _ _ hn h hp
    obtain ⟨hscopes, hbody⟩ := h (hpush _)
    exact ⟨Scopes.pop_eq_of_extend hp hscopes, .loop span (elaborates_bindAs hn) hbody⟩
  case nil => exact fun _ => ⟨hkept _, .nil⟩
  case cons =>
    intro _ _ _ _ _ _ _ _ hs hss hp
    obtain ⟨hscopes, hstmt⟩ := hs hp
    obtain ⟨hscopes', hstmts⟩ := hss (hscopes ▸ Scopes.chain_extend_ne hp _)
    rw [hscopes] at hscopes' hstmts
    rw [Scopes.extend_extend] at hscopes'
    exact ⟨hscopes', .cons hstmt hstmts⟩

end Parcel
