import Parcel.Binding.Operator
import Parcel.Number.Numeral
import Parcel.Proofs.Code.Program
import Parcel.Proofs.Code.Scoped
import Parcel.Symbol.Sys

/-!
# Typed code

When an expression has a type, and when a statement handles its values as their types ask. The
judgement knows nothing of how code is bound: it says what the machine relies on.
-/

namespace Parcel

open List

/-- Nothing in the type is unresolved, and the only container in it is the text builder. -/
def Ty.Formed : Ty → Prop
  | .unresolved => False
  | .array element => element.Formed
  | .container name => name = builderName
  | .integer _ | .float | .double | .bool | .string | .void => True

lemma Ty.Formed.ne_unresolved {type : Ty} (h : type.Formed) : type ≠ .unresolved := by
  rintro rfl
  exact h

/-- The types of a function are formed. -/
structure FunctionSymbol.Formed (f : FunctionSymbol) : Prop where
  params : ∀ v ∈ f.params, v.type.Formed
  result : f.returnType.Formed
  receiver : ∀ v ∈ f.receiver, v.type.Formed

lemma FunctionSymbol.Formed.paramTypes {f : FunctionSymbol} (h : f.Formed) :
    ∀ type ∈ f.params.map (·.type), type.Formed := by
  intro type htype
  obtain ⟨v, hv, rfl⟩ := mem_map.mp htype
  exact h.params v hv

lemma Numeral.width_of_integer? {width : Width} {text : List Char} {n : Word}
    (h : integer? width text = some n) : n.width = width := by
  unfold integer? at h
  split at h
  · split at h
    · cases h
      rfl
    · cases h
  · cases h

namespace Code

variable {e : Expr} {τ : Ty} {stmt : Stmt}

/-- Whether the value of a constant is one of its type: integers have the width of `int`. -/
def Constant.Formed : Constant → Prop
  | .int value => value.width = .int
  | .float _ | .bool _ | .string _ => True

/-- The type of what an operator gives for an operand of a type. -/
def UnaryOp.result? (op : UnaryOp) (operand : Ty) : Option Ty :=
  match op with
  | .negate | .identity => if operand.isNumeric then some operand else none
  | .logicalNot => if operand = .bool then some .bool else none

/-- The type of what an operator gives for two operands of a type. -/
def BinaryOp.result? (op : BinaryOp) (operand : Ty) : Option Ty :=
  match op with
  | .add | .sub | .mul | .div | .rem => if operand.isNumeric then some operand else none
  | .concat => if operand = .string then some .string else none
  | .lt | .gt | .le | .ge => if operand.isNumeric then some .bool else none
  | .eq | .ne => if isComparable operand then some .bool else none
  | .and | .or => if operand = .bool then some .bool else none

/-- The variables that code may touch, the functions that it may call, and the methods for receivers
of a type. -/
structure Signatures where
  var : Var → Prop
  function : FunctionSymbol → Prop
  method : Ty → FunctionSymbol → Prop

/-! ### Expressions -/

/-- An expression has a type. -/
inductive HasType (sigs : Signatures) : Expr → Ty → Prop
  | literal {value} (span : Span) : value.Formed → HasType sigs (.literal value span) value.type
  | paren {e : Expr} {τ} (span : Span) : HasType sigs e τ → HasType sigs (.paren e span) τ
  | name {v} (span : Span) : sigs.var v → HasType sigs (.name v span) v.type
  | assignName {v e} (span span' : Span) : sigs.var v → HasType sigs e v.type →
    HasType sigs (.assign (.name v span) e span') v.type
  | assignIndex {target index e τ} (span span' : Span) : HasType sigs target (.array τ) →
    HasType sigs index .int → HasType sigs e τ →
    HasType sigs (.assign (.index target index τ span) e span') τ
  | unary {op e σ τ} (span : Span) : HasType sigs e σ → op.result? σ = some τ →
    HasType sigs (.unary op e τ span) τ
  | binary {left right op σ τ} (span : Span) : HasType sigs left σ → HasType sigs right σ →
    op.result? σ = some τ → τ.Formed → HasType sigs (.binary left op right τ span) τ
  | call {f arguments} (span : Span) : sigs.function f → arguments.length = f.params.length →
    (∀ p ∈ arguments.zip (f.params.map (·.type)), HasType sigs p.1 p.2) →
    HasType sigs (.call f arguments span) f.returnType
  | methodCall {f receiver arguments σ} (span : Span) : HasType sigs receiver σ → sigs.method σ f →
    arguments.length = f.params.length →
    (∀ p ∈ arguments.zip (f.params.map (·.type)), HasType sigs p.1 p.2) →
    HasType sigs (.methodCall f receiver arguments span) f.returnType
  | conversion {e σ τ} (span : Span) : HasType sigs e σ → τ.Formed →
    HasType sigs (.conversion e τ span) τ
  | makeLength {length τ} (span : Span) : HasType sigs length .int → τ.Formed →
    HasType sigs (.makeLength length (.array τ) span) (.array τ)
  | makeElements {elements τ} (span : Span) : (∀ e ∈ elements, HasType sigs e τ) → τ.Formed →
    HasType sigs (.makeElements elements (.array τ) span) (.array τ)
  | index {target index τ} (span : Span) : HasType sigs target (.array τ) →
    HasType sigs index .int → τ.Formed → HasType sigs (.index target index τ span) τ

variable {sigs sigs' : Signatures}

lemma HasType.type_eq (h : HasType sigs e τ) : e.type = τ := by
  induction h with
  | paren _ _ ih => exact ih
  | _ => rfl

lemma HasType.withSpan (h : HasType sigs e τ) (span : Span) :
    HasType sigs (e.withSpan span) τ := by
  cases h with
  | literal _ hvalue => exact .literal span hvalue
  | paren _ h => exact .paren span h
  | name _ hv => exact .name span hv
  | assignName _ _ hv h => exact .assignName _ span hv h
  | assignIndex _ _ ht hi he => exact .assignIndex _ span ht hi he
  | unary _ h hop => exact .unary span h hop
  | binary _ hl hr hop hτ => exact .binary span hl hr hop hτ
  | call _ hf hlength hargs => exact .call span hf hlength hargs
  | methodCall _ hr hf hlength hargs => exact .methodCall span hr hf hlength hargs
  | conversion _ h hτ => exact .conversion span h hτ
  | makeLength _ h hτ => exact .makeLength span h hτ
  | makeElements _ h hτ => exact .makeElements span h hτ
  | index _ ht hi hτ => exact .index span ht hi hτ

lemma exists_mem_zip {α β : Type} {as : List α} {bs : List β} (h : as.length = bs.length) {a : α}
    (ha : a ∈ as) : ∃ b, (a, b) ∈ as.zip bs := by
  have hfst : (as.zip bs).map Prod.fst = as := map_fst_zip (Nat.le_of_eq h)
  rw [← hfst] at ha
  obtain ⟨⟨a, b⟩, hmem, rfl⟩ := mem_map.mp ha
  exact ⟨b, hmem⟩

/-- Signatures that have what the others have, of the variables those that an expression touches. -/
lemma HasType.mono (hfunction : ∀ f, sigs.function f → sigs'.function f)
    (hmethod : ∀ type f, sigs.method type f → sigs'.method type f) (h : HasType sigs e τ)
    (hvar : ∀ a ∈ e.accesses, ∀ v ∈ a.var?, sigs.var v → sigs'.var v) : HasType sigs' e τ := by
  -- the arguments of a call, given what holds of each of them
  have all {f : FunctionSymbol} {arguments : List Expr} {rest : List Access}
      (ih : ∀ p ∈ arguments.zip (f.params.map (·.type)),
        (∀ a ∈ p.1.accesses, ∀ v ∈ a.var?, sigs.var v → sigs'.var v) → HasType sigs' p.1 p.2)
      (hvar : ∀ a ∈ accessesAll arguments ++ rest, ∀ v ∈ a.var?, sigs.var v → sigs'.var v) :
      ∀ p ∈ arguments.zip (f.params.map (·.type)), HasType sigs' p.1 p.2 := fun p hp =>
    ih p hp fun a ha => hvar a (mem_append_left _
      (mem_accessesAll.mpr ⟨p.1, (of_mem_zip hp).1, ha⟩))
  induction h with
  | literal span hvalue => exact .literal span hvalue
  | paren span _ ih => exact .paren span (ih hvar)
  | name span hv => exact .name span (hvar _ mem_cons_self _ rfl hv)
  | assignName span span' hv _ ih =>
    exact .assignName span span'
      (hvar _ (mem_append_right _ mem_cons_self) _ rfl hv)
      (ih fun a ha => hvar a (mem_append_left _ ha))
  | assignIndex span span' _ _ _ iht ihi ihe =>
    exact .assignIndex span span'
      (iht fun a ha => hvar a (mem_append_left _ (mem_append_left _ ha)))
      (ihi fun a ha => hvar a (mem_append_left _ (mem_append_right _ ha)))
      (ihe fun a ha => hvar a (mem_append_right _ ha))
  | unary span _ hop ih => exact .unary span (ih hvar) hop
  | binary span _ _ hop hτ ihl ihr =>
    exact .binary span (ihl fun a ha => hvar a (mem_append_left _ ha))
      (ihr fun a ha => hvar a (mem_append_right _ ha)) hop hτ
  | call span hf hlength _ ih => exact .call span (hfunction _ hf) hlength (all ih hvar)
  | methodCall span _ hf hlength _ ihr ih =>
    exact .methodCall span (ihr fun a ha => hvar a (mem_append_left _ ha)) (hmethod _ _ hf)
      hlength (all ih fun a ha => hvar a (mem_append_right _ ha))
  | conversion span _ hτ ih => exact .conversion span (ih hvar) hτ
  | makeLength span _ hτ ih => exact .makeLength span (ih hvar) hτ
  | makeElements span _ hτ ih =>
    exact .makeElements span
      (fun e he => ih e he fun a ha => hvar a (mem_accessesAll.mpr ⟨e, he, ha⟩)) hτ
  | index span _ _ hτ iht ihi =>
    exact .index span (iht fun a ha => hvar a (mem_append_left _ ha))
      (ihi fun a ha => hvar a (mem_append_right _ ha)) hτ

/-- A function with so many arguments is one that may be called. -/
def Signatures.Accepts (sigs : Signatures) : Access → Prop
  | .call f count => count = f.params.length ∧ (sigs.function f ∨ ∃ type, sigs.method type f)
  | .read _ | .write _ => True

/-- A typed expression calls functions that are there, with as many arguments as they take. -/
lemma HasType.accepts (h : HasType sigs e τ) : ∀ a ∈ e.accesses, sigs.Accepts a := by
  have both : ∀ {l r : List Access}, (∀ a ∈ l, sigs.Accepts a) → (∀ a ∈ r, sigs.Accepts a) →
      ∀ a ∈ l ++ r, sigs.Accepts a :=
    fun hl hr => forall_mem_append.mpr ⟨hl, hr⟩
  have all : ∀ {f : FunctionSymbol} {arguments : List Expr},
      arguments.length = f.params.length →
      (∀ p ∈ arguments.zip (f.params.map (·.type)), ∀ a ∈ p.1.accesses, sigs.Accepts a) →
      ∀ a ∈ accessesAll arguments, sigs.Accepts a := by
    intro f arguments hlength ih a ha
    obtain ⟨e, he, ha⟩ := mem_accessesAll.mp ha
    obtain ⟨τ, hp⟩ := exists_mem_zip (hlength.trans (length_map _).symm) he
    exact ih (e, τ) hp a ha
  induction h with
  | literal | name => simp [Expr.accesses, Signatures.Accepts]
  | paren _ _ ih | unary _ _ _ ih | conversion _ _ _ ih | makeLength _ _ _ ih =>
    rw [Expr.accesses]
    exact ih
  | assignName _ _ _ _ ih =>
    rw [Expr.accesses]
    exact both ih (by simp [Signatures.Accepts])
  | assignIndex _ _ _ _ _ iht ihi ihe =>
    rw [Expr.accesses, Expr.accesses]
    · exact both (both iht ihi) ihe
    · intro _ _ h
      cases h
  | binary _ _ _ _ _ ihl ihr | index _ _ _ _ ihl ihr =>
    rw [Expr.accesses]
    exact both ihl ihr
  | call _ hf hlength _ ih =>
    rw [Expr.accesses]
    exact both (all hlength ih) (forall_mem_singleton.mpr ⟨hlength, .inl hf⟩)
  | methodCall _ _ hf hlength _ ihr ih =>
    rw [Expr.accesses]
    exact both ihr (both (all hlength ih)
      (forall_mem_singleton.mpr ⟨hlength, .inr ⟨_, hf⟩⟩))
  | makeElements _ _ _ ih =>
    rw [Expr.accesses]
    intro a ha
    obtain ⟨e, he, ha⟩ := mem_accessesAll.mp ha
    exact ih e he a ha

/-! ### Statements -/

/-- A statement handles its own values as their types ask; `result` is the type of what the function
around it returns. -/
def Stmt.OwnTyped (sigs : Signatures) (result : Ty) : Stmt → Prop
  | .declare v none => sigs.var v ∧ v.type.Formed
  | .declare v (some e) => sigs.var v ∧ HasType sigs e v.type
  | .ret (some e) => HasType sigs e result
  | .expr e => ∃ τ, HasType sigs e τ
  | .whileLoop condition _ _ | .forLoop _ condition _ _ _ | .ifElse condition _ _
  | .gotoIf condition _ => HasType sigs condition .bool
  | .fromTo iterator lower upper _ _ =>
    sigs.var iterator ∧ iterator.type = .int ∧ HasType sigs lower .int ∧ HasType sigs upper .int
  | .loop iterator count _ _ =>
    sigs.var iterator ∧ iterator.type = .int ∧ HasType sigs count .int
  | .approach v target => (sigs.var v ∧ v.type = .int) ∧ sigs.var target ∧ target.type = .int
  | .ret none | .block _ | .label _ | .goto _ | .delete _ => True

/-- A statement and all those inside it handle values as their types ask. -/
def Stmt.Typed (sigs : Signatures) (result : Ty) (stmt : Stmt) : Prop :=
  ∀ part ∈ stmt.parts, part.OwnTyped sigs result

lemma Stmt.OwnTyped.mono (hfunction : ∀ f, sigs.function f → sigs'.function f)
    (hmethod : ∀ type f, sigs.method type f → sigs'.method type f) {result : Ty}
    (h : stmt.OwnTyped sigs result) (hown : ∀ v ∈ stmt.ownVars, sigs.var v → sigs'.var v)
    (hvar : ∀ a ∈ stmt.ownAccesses, ∀ v ∈ a.var?, sigs.var v → sigs'.var v) :
    stmt.OwnTyped sigs' result := by
  have lift {e : Expr} {τ : Ty} (he : HasType sigs e τ) (hsub : e.accesses ⊆ stmt.ownAccesses) :
      HasType sigs' e τ := he.mono hfunction hmethod fun a ha => hvar a (hsub ha)
  cases stmt with
  | declare v initializer => cases initializer with
    | none => exact ⟨hown v mem_cons_self h.1, h.2⟩
    | some => exact ⟨hown v mem_cons_self h.1, lift h.2 (List.Subset.refl _)⟩
  | ret value => cases value with
    | none => trivial
    | some => exact lift h (List.Subset.refl _)
  | expr => exact h.imp fun _ he => lift he (List.Subset.refl _)
  | whileLoop | forLoop | ifElse | gotoIf => exact lift h (List.Subset.refl _)
  | fromTo =>
    exact ⟨hown _ mem_cons_self h.1, h.2.1, lift h.2.2.1 (subset_append_right _ _),
      lift h.2.2.2 (subset_append_left _ _)⟩
  | loop => exact ⟨hown _ mem_cons_self h.1, h.2.1, lift h.2.2 (List.Subset.refl _)⟩
  | approach v target =>
    exact ⟨⟨hvar (.read v) (by simp [Stmt.ownAccesses]) v rfl h.1.1, h.1.2⟩,
      hvar (.read target) (by simp [Stmt.ownAccesses]) target rfl h.2.1, h.2.2⟩
  | block | label | goto | delete => trivial

/-- A typed statement calls functions that are there, with as many arguments as they take. -/
lemma Stmt.OwnTyped.accepts {result : Ty} (h : stmt.OwnTyped sigs result) :
    ∀ a ∈ stmt.ownAccesses, sigs.Accepts a := by
  cases stmt with
  | declare v initializer => cases initializer with
    | none => exact forall_mem_nil _
    | some => exact h.2.accepts
  | ret value => cases value with
    | none => exact forall_mem_nil _
    | some => exact HasType.accepts h
  | expr => exact h.elim fun _ => HasType.accepts
  | whileLoop | forLoop | ifElse | gotoIf => exact HasType.accepts h
  | fromTo => exact forall_mem_append.mpr ⟨h.2.2.2.accepts, h.2.2.1.accepts⟩
  | loop => exact h.2.2.accepts
  | approach => simp [Stmt.ownAccesses, Signatures.Accepts]
  | block | label | goto | delete => exact forall_mem_nil _

section Forms

variable {result : Ty} {condition lower upper count : Expr} {body initial action first second : Stmt}
  {labels : LoopLabels} {iterator : Var}

lemma typed_of_isLowered (h : stmt.isLowered = true) :
    stmt.Typed sigs result ↔ stmt.OwnTyped sigs result := by
  simp [Stmt.Typed, parts_of_isLowered h]

lemma typed_block {stmts : List Stmt} :
    (Stmt.block stmts).Typed sigs result ↔ ∀ stmt ∈ stmts, stmt.Typed sigs result := by
  simp only [Stmt.Typed, parts_block, mem_cons, mem_flatMap, forall_eq_or_imp,
    forall_exists_index, and_imp]
  exact ⟨fun h stmt hstmt part => h.2 part stmt hstmt,
    fun h => ⟨trivial, fun part stmt hstmt => h stmt hstmt part⟩⟩

lemma typed_ifThen : (Stmt.ifElse condition body none).Typed sigs result ↔
    HasType sigs condition .bool ∧ body.Typed sigs result := by
  simp [Stmt.Typed, Stmt.parts, Stmt.OwnTyped]

lemma typed_ifElse : (Stmt.ifElse condition first (some second)).Typed sigs result ↔
    HasType sigs condition .bool ∧ first.Typed sigs result ∧ second.Typed sigs result := by
  simp [Stmt.Typed, Stmt.parts, Stmt.OwnTyped, or_imp, forall_and]

lemma typed_whileLoop : (Stmt.whileLoop condition body labels).Typed sigs result ↔
    HasType sigs condition .bool ∧ body.Typed sigs result := by
  simp [Stmt.Typed, Stmt.parts, Stmt.OwnTyped]

lemma typed_forLoop : (Stmt.forLoop initial condition action body labels).Typed sigs result ↔
    HasType sigs condition .bool ∧ initial.Typed sigs result ∧ action.Typed sigs result ∧
      body.Typed sigs result := by
  simp [Stmt.Typed, Stmt.parts, Stmt.OwnTyped, or_imp, forall_and]

lemma typed_fromTo : (Stmt.fromTo iterator lower upper body labels).Typed sigs result ↔
    (sigs.var iterator ∧ iterator.type = .int ∧ HasType sigs lower .int ∧
      HasType sigs upper .int) ∧ body.Typed sigs result := by
  simp [Stmt.Typed, Stmt.parts, Stmt.OwnTyped]

lemma typed_loop : (Stmt.loop iterator count body labels).Typed sigs result ↔
    (sigs.var iterator ∧ iterator.type = .int ∧ HasType sigs count .int) ∧ body.Typed sigs result := by
  simp [Stmt.Typed, Stmt.parts, Stmt.OwnTyped]

end Forms

/-! ### Lowering -/

section Lowering

variable {result : Ty}

lemma survives_ownTyped : Survives (Stmt.OwnTyped sigs result) sigs.var where
  block _ := trivial
  label _ := trivial
  goto _ := trivial
  delete _ := trivial
  ifElse _ h := h
  whileLoop _ h := h
  forLoop _ h := h
  fromTo _ _ h hiterator hbound := by
    obtain ⟨-, htype, hlower, hupper⟩ := h
    have hname {v : Var} (hv : sigs.var v) (htype : v.type = .int) (span : Span) :
        HasType sigs (.name v span) .int := htype ▸ HasType.name span hv
    exact ⟨⟨hbound, hupper⟩, ⟨hiterator, htype ▸ hlower⟩, ⟨⟨hiterator, htype⟩, hbound, rfl⟩,
      .binary _ (hname hiterator htype _) (hname hbound rfl _) rfl trivial⟩
  loop h := ⟨h.1, h.2.1, .literal _ (by rfl), h.2.2⟩

/-- **Lowering keeps statements typed**, if the variables that it introduces may be touched. -/
theorem typed_lower (stmt : Stmt) (ids : Ids) (h : stmt.Typed sigs result)
    (hvars : ∀ v ∈ (stmt.lower.run ids).1.vars, sigs.var v) :
    (stmt.lower.run ids).1.Typed sigs result :=
  survives_ownTyped.forall_lower stmt ids h hvars

end Lowering

end Code

end Parcel
