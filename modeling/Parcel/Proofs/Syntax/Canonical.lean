import Parcel.Proofs.Syntax.Reading
import Parcel.Proofs.Syntax.Tokens

/-!
# Canonical expressions

A tree is canonical if its parentheses say how it is grouped: an operand that binds more loosely
than the operator next to it stands in parentheses, and so does the right operand of a binary
operator of the same level. Every expression that is read is canonical, and is written back as
exactly the tokens that were read.
-/

namespace Parcel.Syntax

variable {op : BinaryOp} {token : Token}

/-- How tightly a binary operator binds: `||` is the loosest, then `&&`, equality, comparison, sums,
and products. -/
def BinaryOp.tightness : BinaryOp → Nat
  | .or => 1
  | .and => 2
  | .eq | .ne => 3
  | .lt | .gt | .le | .ge => 4
  | .add | .sub => 5
  | .mul | .div | .rem => 6

/-- How tightly the outermost form of an expression binds: an assignment is looser than all binary
operators, and a unary operator is tighter; all other forms are tighter still. -/
def Expr.tightness : Expr → Nat
  | .assign .. => 0
  | .binary _ op _ _ => op.tightness
  | .unary .. => 7
  | _ => 8

/-- Types with at most one argument at every level. -/
inductive TypeClause.Canonical : TypeClause → Prop
  | plain (name : String) (span : Span) : Canonical (.mk name [] span)
  | applied (name : String) {argument : TypeClause} (span : Span) :
      Canonical argument → Canonical (.mk name [argument] span)

/-- Trees that need no further parentheses. -/
inductive Expr.Canonical : Expr → Prop
  | literal (value : Literal) (span : Span) : Canonical (.literal value span)
  | paren {inner} (span : Span) : Canonical inner → Canonical (.paren inner span)
  | assign {target value} (span : Span) : Canonical target → 1 ≤ target.tightness →
    Canonical value → Canonical (.assign target value span)
  | unary (op : UnaryOp) {operand} (span : Span) : Canonical operand → 7 ≤ operand.tightness →
    Canonical (.unary op operand span)
  | binary {left} (op : BinaryOp) {right} (span : Span) : Canonical left →
    op.tightness ≤ left.tightness → Canonical right → op.tightness < right.tightness →
    Canonical (.binary left op right span)
  | call (package : Option Name) (name : Name) {arguments} (span : Span) :
    (∀ e ∈ arguments, Canonical e) → Canonical (.call package name arguments span)
  | methodCall {receiver} (name : Name) {arguments} (span : Span) : Canonical receiver →
    8 ≤ receiver.tightness → (∀ e ∈ arguments, Canonical e) →
    Canonical (.methodCall receiver name arguments span)
  | name (text : String) (span : Span) : Canonical (.name text span)
  | makeLength {type length} (span : Span) : type.Canonical → Canonical length →
    Canonical (.makeArray type (some length) none span)
  | makeElements {type elements} (span : Span) : type.Canonical → (∀ e ∈ elements, Canonical e) →
    Canonical (.makeArray type none (some elements) span)
  | index {target place} (span : Span) : Canonical target → 8 ≤ target.tightness → Canonical place →
    Canonical (.index target place span)

/-! ### Operators -/

lemma binaryOp?_eq_some_iff {symbol : Mark} :
    Parser.binaryOp? symbol = some op ↔ symbol = op.mark := by
  constructor
  · intro h
    cases symbol <;> cases h <;> rfl
  · rintro rfl
    cases op <;> rfl

lemma unaryOp?_eq_some_iff {op : UnaryOp} :
    Parser.unaryOp? token = some op ↔ token = .mark op.mark := by
  constructor
  · intro h
    unfold Parser.unaryOp? at h
    split at h <;> cases h <;> rfl
  · rintro rfl
    cases op <;> rfl

lemma binaryLevel_add_one (op : BinaryOp) : Parser.binaryLevel op + 1 = op.tightness := by
  cases op <;> rfl

lemma binaryOpAt?_eq_some_iff {level : Nat} : Parser.binaryOpAt? level token = some op ↔
      token = .mark op.mark ∧ op.tightness = level + 1 := by
  have hlevel := binaryLevel_add_one op
  cases token with
  | mark symbol =>
    simp only [Parser.binaryOpAt?, Token.mark.injEq, ← binaryOp?_eq_some_iff]
    cases hop : Parser.binaryOp? symbol with
    | none => simp
    | some =>
      simp only [Option.ite_none_right_eq_some, Option.some.injEq]
      constructor
      · rintro ⟨rfl, rfl⟩
        exact ⟨rfl, hlevel.symm⟩
      · rintro ⟨rfl, htight⟩
        exact ⟨by omega, rfl⟩
  | _ => simp [Parser.binaryOpAt?]

/-! ### What was read -/

/-- The tree is canonical, binds at least as tightly as `least`, and is written as the tokens. -/
structure Expr.Spells (least : Nat) (tokens : List Token) (e : Expr) : Prop where
  tokens_eq : e.tokens = tokens
  canonical : e.Canonical
  tight : least ≤ e.tightness

/-- The trees are canonical, and are written as the tokens with commas between them. -/
structure Expr.SpellEach (tokens : List Token) (es : List Expr) : Prop where
  tokens_eq : commaSeparated (es.map Expr.tokens) = tokens
  canonical : ∀ e ∈ es, e.Canonical

lemma Expr.Spells.mono {least least' : Nat} {tokens : List Token} {e : Expr}
    (h : e.Spells least tokens) (hle : least' ≤ least) : e.Spells least' tokens :=
  ⟨h.tokens_eq, h.canonical, Nat.le_trans hle h.tight⟩

lemma Expr.Spells.binary {left right : Expr} {written more : List Token}
    (hleft : left.Spells op.tightness written) (hright : right.Spells (op.tightness + 1) more)
    (span : Span) :
    (Expr.binary left op right span).Spells op.tightness (written ++ .mark op.mark :: more) where
  tokens_eq := by rw [Expr.tokens, hleft.tokens_eq, hright.tokens_eq]
  canonical := .binary op span hleft.canonical hleft.tight hright.canonical hright.tight
  tight := Nat.le_refl _

/-- What is read as an expression: it stands on the lexemes, and is written as their tokens. -/
abbrev Expr.ReadFrom (least : Nat) : List Lexeme → Expr → Prop :=
  Parser.Read .expr fun used e => e.Spells least (tokensOf used)

namespace Parser

lemma parses_typeClause (src : Source) (fuel : Nat) :
    Parses src fuel 1 (typeClause src fuel)
      (Read .type fun used type => type.tokens = tokensOf used ∧ type.Canonical) := by
  induction fuel with
  | zero => exact parses_exhausted Nat.one_pos
  | succ fuel ih =>
    intro c
    rw [typeClause]
    refine .ident fun text c₁ => .forget (List.nil_sublist _) ?_
    refine .accept (fun c₂ => ?_) ?_
    · refine .one ih fun argument inner c₃ hargument => .expect fun c₄ => .node (fun _ => ⟨rfl, rfl⟩) fun span => ?_
      refine ⟨?_, .applied _ _ hargument.holds.2⟩
      simp [TypeClause.tokens, TypeClause.argumentTokens, enclosed, hargument.holds.1]
    · refine .node (fun _ => ⟨rfl, rfl⟩) fun span => ⟨?_, .plain _ _⟩
      simp [TypeClause.tokens, TypeClause.argumentTokens]

/-- What the productions of expressions read, up to a depth of recursion. -/
structure ExpressionsRead (src : Source) (fuel : Nat) : Prop where
  whole : Parses src fuel 10 (expression src fuel) (Expr.ReadFrom 0)
  binary : ∀ level, level ≤ binaryLevels →
    Parses src fuel (9 - level) (binary src fuel level) (Expr.ReadFrom (level + 1))
  binaryRest : ∀ level left written, level < binaryLevels → left.ReadFrom (level + 1) written →
    Parses src fuel 1 (binaryRest src fuel level left) fun used e =>
      e.ReadFrom (level + 1) (written ++ used)
  unary : Parses src fuel 2 (unary src fuel) (Expr.ReadFrom 7)
  selections : ∀ operand written, operand.ReadFrom 8 written →
    Parses src fuel 1 (selections src fuel operand) fun used e => e.ReadFrom 8 (written ++ used)
  primary : Parses src fuel 1 (primary src fuel) (Expr.ReadFrom 8)
  arguments : ∀ opening closing, Parses src fuel 1 (arguments src fuel opening closing)
    fun used es => Row used (es.map .expr) ∧
      ∃ inner, Expr.SpellEach inner es ∧ tokensOf used = enclosed opening inner closing
  argumentsRest : Parses src fuel 11 (argumentsRest src fuel) fun used es =>
    Row used (es.map .expr) ∧ es ≠ [] ∧ Expr.SpellEach (tokensOf used) es

section Step

variable {src : Source} {fuel : Nat} (ih : ExpressionsRead src fuel)
include ih

lemma parses_expression :
    Parses src (fuel + 1) 10 (expression src (fuel + 1)) (Expr.ReadFrom 0) := by
  intro c
  rw [expression]
  refine .opens (ih.binary 0 (Nat.zero_le _)) (by decide) fun target used c₁ htarget => ?_
  refine .accept (fun c₂ => .one ih.whole fun value more c₃ hvalue => .pure ⟨?_, ?_⟩) (.pure ⟨?_, ?_⟩)
  · exact htarget.placed.merged hvalue.placed _ rfl rfl
  · refine ⟨?_, .assign _ htarget.holds.canonical htarget.holds.tight hvalue.holds.canonical,
      Nat.zero_le _⟩
    simp [Expr.tokens, htarget.holds.tokens_eq, hvalue.holds.tokens_eq]
  · exact htarget.placed
  · exact htarget.holds.mono (Nat.zero_le _)

lemma parses_binary (level : Nat) (hlevel : level ≤ binaryLevels) :
    Parses src (fuel + 1) (9 - level) (binary src (fuel + 1) level) (Expr.ReadFrom (level + 1)) := by
  have hlevels : binaryLevels = 6 := rfl
  intro c
  rw [binary]
  split
  next hlt =>
    refine .opens (ih.binary (level + 1) hlt) (by omega) fun left used c₁ hleft => ?_
    exact .last (ih.binaryRest level left used hlt ⟨hleft.placed, hleft.holds.mono (Nat.le_succ _)⟩)
      fun _ _ h => h
  next hge =>
    obtain rfl : level = binaryLevels := Nat.le_antisymm hlevel (Nat.not_lt.mp hge)
    exact .opensLast ih.unary (by omega) fun _ _ h => h

lemma parses_binaryRest (level : Nat) (left : Expr) (written : List Lexeme)
    (hlevel : level < binaryLevels) (hleft : left.ReadFrom (level + 1) written) :
    Parses src (fuel + 1) 1 (binaryRest src (fuel + 1) level left) fun used e =>
      e.ReadFrom (level + 1) (written ++ used) := by
  intro c
  rw [binaryRest]
  refine .peek ?_
  split
  next op hop =>
    obtain ⟨token, hnext, htoken⟩ := Option.bind_eq_some_iff.mp hop
    obtain ⟨rfl, htight⟩ := binaryOpAt?_eq_some_iff.mp htoken
    refine .advance hnext fun c₁ => .one (ih.binary (level + 1) hlevel) fun right used c₂ hright => ?_
    have hspells := (htight ▸ hleft.holds : left.Spells op.tightness _).binary
      (htight ▸ hright.holds) (left.span.merge right.span)
    refine .last (ih.binaryRest level _ _ hlevel ⟨hleft.placed.merged hright.placed
      ⟨.mark op.mark, c.place src⟩ rfl rfl, ?_⟩) fun more e he => ?_
    · simpa [htight] using hspells
    · simpa using he
  next => exact .pure (by simpa using hleft)

lemma parses_unary : Parses src (fuel + 1) 2 (unary src (fuel + 1)) (Expr.ReadFrom 7) := by
  intro c
  rw [unary]
  refine .peek ?_
  split
  next op hop =>
    obtain ⟨token, hnext, htoken⟩ := Option.bind_eq_some_iff.mp hop
    obtain rfl := unaryOp?_eq_some_iff.mp htoken
    refine .here (.advance hnext fun c₁ => .one ih.unary fun operand used c₂ hoperand => ?_)
    refine .node (fun _ => ⟨rfl, rfl⟩) fun span => ⟨?_, .unary _ _ hoperand.holds.canonical hoperand.holds.tight,
      Nat.le_refl _⟩
    simp [Expr.tokens, hoperand.holds.tokens_eq]
  next =>
    refine .opens ih.primary (by decide) fun operand used c₁ hoperand => ?_
    exact .last (ih.selections operand used hoperand) fun more e he =>
      ⟨he.placed, he.holds.mono (Nat.le_succ 7)⟩

lemma parses_selections (operand : Expr) (written : List Lexeme)
    (hoperand : operand.ReadFrom 8 written) :
    Parses src (fuel + 1) 1 (selections src (fuel + 1) operand) fun used e =>
      e.ReadFrom 8 (written ++ used) := by
  obtain ⟨hplaced, htokens, hcanonical, htight⟩ := hoperand
  intro c
  rw [selections]
  refine .accept (fun c₁ => ?_) (.accept (fun c₁ => ?_) (.pure ?_))
  · refine .one ih.whole fun place used c₂ hplace => .expect fun c₃ => ?_
    refine .spanFrom fun hrow hne => ?_
    refine .last (ih.selections _ _ ⟨hplaced.selected hne hrow rfl rfl, ?_,
      .index _ hcanonical htight hplace.holds.canonical, Nat.le_refl _⟩) fun more e he => ?_
    · simp [Expr.tokens, enclosed, htokens, hplace.holds.tokens_eq]
    · simpa using he
  · refine .ident fun name c₂ => .many (ih.arguments _ _) fun args used c₃ hargs => ?_
    obtain ⟨inner, hargs, hinner⟩ := hargs
    refine .spanFrom fun hrow hne => ?_
    refine .last (ih.selections _ _ ⟨hplaced.selected hne hrow rfl rfl, ?_,
      .methodCall _ _ hcanonical htight hargs.canonical, Nat.le_refl _⟩) fun more e he => ?_
    · simp [Expr.tokens, htokens, hargs.tokens_eq, hinner]
    · simpa using he
  · simpa using ⟨hplaced, htokens, hcanonical, htight⟩

omit ih in
lemma reads_literal (value : Literal) {c : Cursor} (hnext : c.next? = some value.token) :
    Reads src (fuel + 1) 1 c false [] [] c (do
      advance
      return .literal value (← spanFrom (c.place src).start)) (Expr.ReadFrom 8) := by
  refine .advance hnext fun _ => .node (fun _ => ⟨rfl, rfl⟩) fun span => ?_
  exact ⟨by rw [Expr.tokens]; rfl, .literal value span, Nat.le_refl _⟩

lemma parses_primary : Parses src (fuel + 1) 1 (primary src (fuel + 1)) (Expr.ReadFrom 8) := by
  intro c
  rw [primary]
  refine .here (.peek ?_)
  split
  next digits hnext => exact reads_literal (.number digits) hnext
  next text hnext => exact reads_literal (.string text) hnext
  next hnext => exact reads_literal (.bool true) hnext
  next hnext => exact reads_literal (.bool false) hnext
  next hnext =>
    refine .advance hnext fun c₁ => .one ih.whole fun inner used c₂ hinner => .expect fun c₃ => ?_
    refine .node (fun _ => ⟨rfl, rfl⟩) fun span => ⟨?_, .paren _ hinner.holds.canonical, Nat.le_refl _⟩
    simp [Expr.tokens, enclosed, hinner.holds.tokens_eq]
  next hnext =>
    refine .advance hnext fun c₁ => .one (parses_typeClause src fuel) fun type used c₂ htype => ?_
    refine .accept (fun c₃ => ?_) (.at ?_)
    · refine .one ih.whole fun length more c₄ hlength => .expect fun c₅ => .node (fun _ => ⟨rfl, rfl⟩) fun span => ?_
      refine ⟨?_, .makeLength _ htype.holds.2 hlength.holds.canonical, Nat.le_refl _⟩
      simp [Expr.tokens, enclosed, htype.holds.1, hlength.holds.tokens_eq]
    · split
      next =>
        refine .many (ih.arguments _ _) fun elements more c₃ helements => .node (fun _ => ⟨rfl, rfl⟩) fun span => ?_
        obtain ⟨inner, helements, hinner⟩ := helements
        refine ⟨?_, .makeElements _ htype.holds.2 helements.canonical, Nat.le_refl _⟩
        simp [Expr.tokens, htype.holds.1, helements.tokens_eq, hinner]
      next => exact .unexpected (by simp)
  next text hnext =>
    refine .ident fun name c₁ => .look (run_get c₁) ?_
    split
    next colons callee rest hahead =>
      have hnext₁ : c₁.next? = some (.mark .doubleColon) := by rw [Cursor.next?, hahead]; rfl
      refine .advance hnext₁ fun c₂ => .ident fun callee c₃ => ?_
      refine .many (ih.arguments _ _) fun args more c₄ hargs => .node (fun _ => ⟨rfl, rfl⟩) fun span => ?_
      obtain ⟨inner, hargs, hinner⟩ := hargs
      refine ⟨?_, .call _ _ _ hargs.canonical, Nat.le_refl _⟩
      simp [Expr.tokens, hargs.tokens_eq, hinner]
    next =>
      refine .many (ih.arguments _ _) fun args more c₂ hargs => .node (fun _ => ⟨rfl, rfl⟩) fun span => ?_
      obtain ⟨inner, hargs, hinner⟩ := hargs
      refine ⟨?_, .call _ _ _ hargs.canonical, Nat.le_refl _⟩
      simp [Expr.tokens, hargs.tokens_eq, hinner]
    next =>
      refine .forget (List.nil_sublist _) (.node (fun _ => ⟨rfl, rfl⟩) fun span => ⟨?_, .name _ _, Nat.le_refl _⟩)
      simp [Expr.tokens]
  next => exact .unexpected (by simp)

lemma parses_arguments (opening closing : Mark) :
    Parses src (fuel + 1) 1 (arguments src (fuel + 1) opening closing) fun used es =>
      Row used (es.map .expr) ∧
        ∃ inner, Expr.SpellEach inner es ∧ tokensOf used = enclosed opening inner closing := by
  intro c
  rw [arguments]
  refine .expect fun c₁ => .accept (fun c₂ => .done rfl ⟨[], ⟨rfl, by simp⟩, rfl⟩) ?_
  refine .many ih.argumentsRest fun args used c₃ hargs => .expect fun c₄ => .done rfl ?_
  exact ⟨tokensOf used, hargs.2, by simp [enclosed]⟩

lemma parses_argumentsRest :
    Parses src (fuel + 1) 11 (argumentsRest src (fuel + 1)) fun used es =>
      Row used (es.map .expr) ∧ es ≠ [] ∧ Expr.SpellEach (tokensOf used) es := by
  intro c
  rw [argumentsRest]
  refine .opens ih.whole (by decide) fun arg used c₁ harg => .accept (fun c₂ => ?_) ?_
  · refine .many ih.argumentsRest fun args more c₃ hargs => .done rfl ⟨List.cons_ne_nil _ _, ?_, ?_⟩
    · rw [List.map_cons, commaSeparated_cons (by simpa using hargs.1), hargs.2.tokens_eq,
        harg.holds.tokens_eq]
      simp
    · simpa using ⟨harg.holds.canonical, hargs.2.canonical⟩
  · refine .done rfl ⟨List.cons_ne_nil _ _, ?_, ?_⟩
    · simp [commaSeparated, harg.holds.tokens_eq]
    · simpa using harg.holds.canonical

end Step

/-- **The productions of expressions** give canonical trees, and consume exactly the tokens that
these are written as.

**Proof sketch.** By induction on the depth of the recursion: each production calls others of a
smaller depth, and puts a tree together whose tokens are those of the parts in a row. -/
theorem expressionsRead (src : Source) (fuel : Nat) : ExpressionsRead src fuel := by
  induction fuel with
  | zero =>
    exact ⟨parses_exhausted (by omega), fun level hlevel => parses_exhausted (Nat.sub_pos_of_lt
        (Nat.lt_of_le_of_lt hlevel (by decide))), fun _ _ _ _ _ => parses_exhausted (by omega),
      parses_exhausted (by omega), fun _ _ _ => parses_exhausted (by omega),
      parses_exhausted (by omega), fun _ _ => parses_exhausted (by omega),
      parses_exhausted (by omega)⟩
  | succ fuel ih =>
    exact ⟨parses_expression ih, parses_binary ih, parses_binaryRest ih, parses_unary ih,
      parses_selections ih, parses_primary ih, parses_arguments ih, parses_argumentsRest ih⟩

lemma ExpressionsRead.expression {src : Source} {fuel : Nat} (h : ExpressionsRead src fuel)
    (c : Cursor) (e : Expr) (c' : Cursor) (hrun : (expression src fuel).run c = .ok (e, c')) :
    ∃ used, c.Moves used c' ∧ e.Spells 0 (tokensOf used) := by
  obtain ⟨used, hmoves, hread⟩ := (h.whole c).ends.success e c' hrun
  exact ⟨used, hmoves, hread.holds⟩

end Parser

end Parcel.Syntax
