import Parcel.Proofs.Syntax.Canonical

/-!
# Expressions are read by precedence

The tokens of a canonical expression are read as that expression, whatever follows them, as long as
the token that follows cannot extend it; and every expression that is read is canonical.

The operators of a level are read by a loop that holds the left operand read so far, and so are the
indices and method calls after an operand. So what is shown of a left operand is that its tokens
lead to the loop with that operand in hand (`Parser.LeadsTo`), also where an operator of the same
level follows.

## Main results

* `Syntax.Parser.readable_of_canonical` — canonical expressions are readable.
* `Syntax.expression_precedence` — expressions are read by precedence.
-/

namespace Parcel

open List

/-- How tightly a token binds the expression that stands before it, if it can extend one at all: the
arrow of an assignment, the binary operators, indices and method calls, and what only follows a
name. -/
def Token.attachment : Token → Option Nat
  | .mark .arrow => some 0
  | .mark .orOr => some 1
  | .mark .andAnd => some 2
  | .mark .equal | .mark .notEqual => some 3
  | .mark .less | .mark .greater | .mark .lessEqual | .mark .greaterEqual => some 4
  | .mark .plus | .mark .minus => some 5
  | .mark .star | .mark .slash | .mark .percent => some 6
  | .mark .leftBracket | .mark .dot => some 8
  | .mark .leftParen | .mark .doubleColon => some 9
  | _ => none

namespace Syntax

variable {least : Nat} {follow : List Token} {token : Token}

lemma attachment_binaryOp (op : BinaryOp) :
    (Token.mark op.mark).attachment = some op.tightness := by
  cases op <;> rfl

/-- No token follows that binds the expression before it as tightly as `least`. -/
def Stops (least : Nat) (follow : List Token) : Prop :=
  ∀ n, follow.head?.bind Token.attachment = some n → n < least

lemma Stops.mono {least' : Nat} (h : Stops least follow) (hle : least ≤ least') :
    Stops least' follow :=
  fun n hn => Nat.lt_of_lt_of_le (h n hn) hle

lemma stops_cons (h : ∀ n, token.attachment = some n → n < least) :
    Stops least (token :: follow) :=
  h

lemma stops_of_none (h : token.attachment = none) (least : Nat) : Stops least (token :: follow) :=
  stops_cons fun n hn => by simp [h] at hn

lemma Stops.head?_ne {n : Nat} (h : Stops least follow) (htoken : token.attachment = some n)
    (hle : least ≤ n) : follow.head? ≠ some token := by
  intro hhead
  have hlt := h n (by rw [hhead]; exact htoken)
  omega

lemma Expr.exists_tokens_cons (e : Expr) :
    ∃ first more, e.tokens = first :: more ∧
      first ≠ .mark .rightParen ∧ first ≠ .mark .rightBrace := by
  induction e using Expr.structural with
  | literal value =>
    refine ⟨value.token, [], rfl, ?_, ?_⟩ <;>
    · unfold Literal.token
      split <;> simp
  | paren | name => exact ⟨_, _, rfl, by simp, by simp⟩
  | unary op =>
    refine ⟨_, _, rfl, ?_, ?_⟩ <;> cases op <;> simp [UnaryOp.mark]
  | call package =>
    cases package <;> exact ⟨_, _, rfl, by simp, by simp⟩
  | makeArray type length elements =>
    cases length <;> cases elements <;> exact ⟨_, _, rfl, by simp, by simp⟩
  | assign _ _ _ ih | binary _ _ _ _ ih | methodCall _ _ _ _ ih | index _ _ _ ih =>
    obtain ⟨first, more, hfirst, hne⟩ := ih
    exact ⟨first, _, by rw [Expr.tokens, hfirst]; rfl, hne⟩

lemma Expr.tokens_length_pos (e : Expr) : 0 < e.tokens.length := by
  obtain ⟨first, more, h, -⟩ := e.exists_tokens_cons
  rw [h, length_cons]
  omega

/-- An operand does not start with a unary operator. -/
lemma Expr.Canonical.unaryOp?_head {e : Expr} (he : e.Canonical) (htight : 8 ≤ e.tightness) :
    e.tokens.head?.bind Parser.unaryOp? = none := by
  have hbase (base : Expr) (more : List Token)
      (h : base.tokens.head?.bind Parser.unaryOp? = none) :
      (base.tokens ++ more).head?.bind Parser.unaryOp? = none := by
    obtain ⟨first, rest, hfirst, -⟩ := base.exists_tokens_cons
    rw [hfirst] at h ⊢
    exact h
  induction he with
  | literal value => rcases value with _ | _ | (_ | _) <;> rfl
  | paren | name | makeLength | makeElements => rfl
  | assign | unary => simp [Expr.tightness] at htight
  | @binary left op right span hl hlt hr hrt ihl ihr =>
    have hop : op.tightness ≤ 6 := by cases op <;> decide
    simp only [Expr.tightness] at htight
    omega
  | call package => cases package <;> rfl
  | methodCall _ _ _ htight' _ ih | index _ _ htight' _ ih => exact hbase _ _ (ih htight')

namespace Parser

variable {e' target : Expr} {c : Cursor} {fuel level : Nat} {type : TypeClause} {closing : Mark}
  {es args : List Expr}

/-- **An expression is read by a production**: with enough depth of recursion, its tokens are
consumed and give it back, up to spans, where no token follows that binds as tightly as `least`. -/
def ReadBy (p : Nat → Parser Expr) (slack least : Nat) (e : Expr) : Prop :=
  ∀ fuel c follow, 16 * e.tokens.length ≤ fuel + slack → Stops least follow →
    tokensOf c.ahead = e.tokens ++ follow →
    Gives c (p fuel) fun e' c' => e'.bare = e.bare ∧ tokensOf c'.ahead = follow

/-- **The tokens of an expression lead a production to its loop**: they are consumed, and the
production goes on as its loop does with the expression in hand. -/
def LeadsTo (p : Nat → Parser Expr) (loop : Nat → Expr → Parser Expr) (slack least : Nat)
    (e : Expr) : Prop :=
  ∀ fuel c follow, 16 * e.tokens.length ≤ fuel + slack → Stops least follow →
    tokensOf c.ahead = e.tokens ++ follow →
    ∃ fuel' e' c', fuel ≤ fuel' + e.tokens.length ∧ e'.bare = e.bare ∧
      tokensOf c'.ahead = follow ∧ (p fuel).run c = (loop fuel' e').run c'

/-- An operand and what is selected from it. -/
def operand (src : Source) (fuel : Nat) : Parser Expr := do
  let base ← primary src fuel
  selections src fuel base

/-- An expression is read by all productions that it fits. -/
structure Readable (src : Source) (e : Expr) : Prop where
  operand : 8 ≤ e.tightness → LeadsTo (operand src) (selections src) 9 9 e
  unary : 7 ≤ e.tightness → ReadBy (unary src) 8 7 e
  loop : ∀ level, level < binaryLevels → level < e.tightness →
    LeadsTo (binary src · level) (binaryRest src · level) (1 + level) (level + 2) e
  binary : ∀ level, level ≤ binaryLevels → level < e.tightness →
    ReadBy (binary src · level) (1 + level) (level + 1) e
  expression : ReadBy (expression src) 0 0 e

variable {src : Source} {e : Expr}

/-! ### From one production to the next -/

/-- There are tokens to read, so there is depth for one call at least. -/
lemma ReadBy.of_succ {p : Nat → Parser Expr} {slack : Nat} (hslack : slack < 16)
    (h : ReadBy (fun fuel => p (fuel + 1)) (slack + 1) least e) : ReadBy p slack least e := by
  intro fuel c follow hfuel
  have hpos := e.tokens_length_pos
  obtain ⟨fuel, rfl⟩ : ∃ k, fuel = k + 1 := ⟨fuel - 1, by omega⟩
  exact h fuel c follow (by omega)

variable (src) in
/-- The loop over selections ends where no index and no method call follows. -/
lemma gives_selections (hfuel : 0 < fuel) (hbare : e'.bare = e.bare)
    (hahead : tokensOf c.ahead = follow) (hstops : Stops 8 follow) :
    Gives c (selections src fuel e') fun e' c' => e'.bare = e.bare ∧ tokensOf c'.ahead = follow := by
  obtain ⟨fuel, rfl⟩ := Nat.exists_eq_add_of_lt hfuel
  rw [Nat.zero_add, selections]
  refine Gives.decline ?_ (Gives.decline ?_ (gives_pure ⟨hbare, hahead⟩))
  · rw [hahead]
    exact hstops.head?_ne rfl (Nat.le_refl 8)
  · rw [hahead]
    exact hstops.head?_ne rfl (Nat.le_refl 8)

variable (src) in
lemma gives_binaryRest (hfuel : 0 < fuel) (hbare : e'.bare = e.bare)
    (hahead : tokensOf c.ahead = follow) (hstops : Stops (level + 1) follow) :
    Gives c (binaryRest src fuel level e') fun e' c' =>
      e'.bare = e.bare ∧ tokensOf c'.ahead = follow := by
  obtain ⟨fuel, rfl⟩ := Nat.exists_eq_add_of_lt hfuel
  rw [Nat.zero_add, binaryRest]
  have hnone : c.next?.bind (binaryOpAt? level) = none := by
    rw [Option.bind_eq_none_iff]
    intro token htoken
    rw [Cursor.next?_eq, hahead] at htoken
    cases hop : binaryOpAt? level token with
    | none => rfl
    | some op =>
      obtain ⟨rfl, htight⟩ := binaryOpAt?_eq_some_iff.mp hop
      exact absurd htoken
        (hstops.head?_ne (attachment_binaryOp op) (Nat.le_of_eq htight.symm))
  refine Gives.ran (run_peek? c) ?_
  rw [hnone]
  exact gives_pure ⟨hbare, hahead⟩

lemma LeadsTo.of_primary (h : ReadBy (fun fuel => primary src (fuel + 1)) 10 9 e) :
    LeadsTo (operand src) (selections src) 9 9 e := by
  intro fuel c follow hfuel hstops hahead
  obtain ⟨e', c', hrun, hbare, hahead'⟩ :=
    ReadBy.of_succ (by decide) h fuel c follow hfuel hstops hahead
  refine ⟨fuel, e', c', Nat.le_add_right _ _, hbare, hahead', ?_⟩
  rw [operand, run_bind_ok hrun]

lemma ReadBy.unary_of_operand (h : LeadsTo (operand src) (selections src) 9 9 e)
    (hhead : e.tokens.head?.bind unaryOp? = none) : ReadBy (unary src) 8 7 e := by
  refine .of_succ (by decide) fun fuel c follow hfuel hstops hahead => ?_
  have hpos := e.tokens_length_pos
  obtain ⟨fuel', e', c', hfuel', hbare, hahead', hrun⟩ :=
    h fuel c follow (by omega) (hstops.mono (by omega)) hahead
  have hnone : c.next?.bind unaryOp? = none := by
    obtain ⟨first, more, hfirst, -⟩ := e.exists_tokens_cons
    rw [hfirst] at hhead hahead
    rw [Cursor.next?_eq, hahead]
    exact hhead
  have hpos' : 0 < fuel' := by omega
  obtain ⟨result, c₂, hgives, hresult⟩ :=
    gives_selections src hpos' hbare hahead' (hstops.mono (by omega))
  simp only [unary]
  refine Gives.ran (run_peek? c) ?_
  rw [hnone]
  exact ⟨result, c₂, hrun.trans hgives, hresult⟩

lemma ReadBy.binary_of_unary (h : ReadBy (unary src) 8 7 e) :
    ReadBy (binary src · binaryLevels) (1 + binaryLevels) (binaryLevels + 1) e := by
  refine .of_succ (by decide) fun fuel c follow hfuel hstops hahead => ?_
  have hlevels : binaryLevels = 6 := rfl
  dsimp only
  rw [binary, if_neg (Nat.lt_irrefl _)]
  exact h fuel c follow (by omega) hstops hahead

lemma LeadsTo.of_tighter (hlevel : level < binaryLevels)
    (h : ReadBy (binary src · (level + 1)) (1 + (level + 1)) (level + 2) e) :
    LeadsTo (binary src · level) (binaryRest src · level) (1 + level) (level + 2) e := by
  intro fuel c follow hfuel hstops hahead
  have hpos := e.tokens_length_pos
  have hlevels : binaryLevels = 6 := rfl
  obtain ⟨fuel, rfl⟩ : ∃ k, fuel = k + 1 := ⟨fuel - 1, by omega⟩
  obtain ⟨e', c', hrun, hbare, hahead'⟩ := h fuel c follow (by omega) hstops hahead
  refine ⟨fuel, e', c', by omega, hbare, hahead', ?_⟩
  dsimp only at hrun ⊢
  rw [binary, if_pos hlevel, run_bind_ok hrun]

lemma ReadBy.of_loop (hlevel : level < binaryLevels)
    (h : LeadsTo (binary src · level) (binaryRest src · level) (1 + level) (level + 2) e) :
    ReadBy (binary src · level) (1 + level) (level + 1) e := by
  intro fuel c follow hfuel hstops hahead
  have hpos := e.tokens_length_pos
  have hlevels : binaryLevels = 6 := rfl
  obtain ⟨fuel', e', c', hfuel', hbare, hahead', hrun⟩ :=
    h fuel c follow hfuel (hstops.mono (Nat.le_succ _)) hahead
  have hpos' : 0 < fuel' := by omega
  obtain ⟨result, c₂, hgives, hresult⟩ := gives_binaryRest src hpos' hbare hahead' hstops
  exact ⟨result, c₂, hrun.trans hgives, hresult⟩

/-- One more round of a loop: with `e` in hand it reads the tokens `more`, and goes on with `longer`
in hand. -/
lemma LeadsTo.round {p : Nat → Parser Expr} {loop : Nat → Expr → Parser Expr} {slack : Nat}
    {longer : Expr} {more : List Token} (h : LeadsTo p loop slack least e) (hslack : slack ≤ 9)
    (htokens : longer.tokens = e.tokens ++ more) (hmore : 0 < more.length)
    (hleast : ∀ follow, Stops least (more ++ follow))
    (hround : ∀ fuel e' c follow, 16 * more.length ≤ fuel → e'.bare = e.bare →
      tokensOf c.ahead = more ++ follow → Stops least follow →
      ∃ longer' c', longer'.bare = longer.bare ∧ tokensOf c'.ahead = follow ∧
        (loop (fuel + 1) e').run c = (loop fuel longer').run c') :
    LeadsTo p loop slack least longer := by
  intro fuel c follow hfuel hstops hahead
  have hpos := e.tokens_length_pos
  rw [htokens, length_append] at hfuel ⊢
  rw [htokens, append_assoc] at hahead
  obtain ⟨fuel₁, e', c₁, hfuel₁, hbare, hahead₁, hrun⟩ :=
    h fuel c _ (by omega) (hleast follow) hahead
  obtain ⟨fuel₁, rfl⟩ : ∃ k, fuel₁ = k + 1 := ⟨fuel₁ - 1, by omega⟩
  obtain ⟨longer', c', hlonger, hahead', hrun'⟩ :=
    hround fuel₁ e' c₁ follow (by omega) hbare hahead₁ hstops
  exact ⟨fuel₁, longer', c', by omega, hlonger, hahead', hrun.trans hrun'⟩

lemma ReadBy.expression_of_binary
    (h : ReadBy (binary src · 0) (1 + 0) (0 + 1) e) : ReadBy (expression src) 0 0 e := by
  refine .of_succ (by decide) fun fuel c follow hfuel hstops hahead => ?_
  simp only [expression]
  refine (h fuel c follow (by omega) (hstops.mono (Nat.le_succ 0)) hahead).bind fun e' c' h' => ?_
  refine Gives.decline ?_ (gives_pure h')
  rw [h'.2]
  exact hstops.head?_ne rfl (Nat.le_refl 0)

lemma ReadBy.looser {top : Nat} (htop : top ≤ binaryLevels)
    (h : ReadBy (binary src · top) (1 + top) (top + 1) e) (hlevel : level ≤ top) :
    ReadBy (binary src · level) (1 + level) (level + 1) e := by
  induction htop' : top - level generalizing level with
  | zero =>
    obtain rfl : level = top := by omega
    exact h
  | succ n ih =>
    have hlt : level < binaryLevels := by omega
    have htighter : ReadBy (binary src · (level + 1)) (1 + (level + 1)) (level + 2) e :=
      ih (by omega) (by omega)
    exact .of_loop hlt (.of_tighter hlt htighter)

lemma readable_of_unary (hunary : ReadBy (unary src) 8 7 e)
    (hoperand : 8 ≤ e.tightness → LeadsTo (operand src) (selections src) 9 9 e) :
    Readable src e := by
  have hbinary (level : Nat) (hlevel : level ≤ binaryLevels) :
      ReadBy (Parser.binary src · level) (1 + level) (level + 1) e :=
    .looser (Nat.le_refl _) hunary.binary_of_unary hlevel
  exact {
    operand := hoperand
    unary := fun _ => hunary
    loop := fun level hlevel _ => .of_tighter hlevel (hbinary (level + 1) hlevel)
    binary := fun level hlevel _ => hbinary level hlevel
    expression := .expression_of_binary (hbinary 0 (Nat.zero_le _)) }

lemma readable_of_operand (he : e.Canonical) (htight : 8 ≤ e.tightness)
    (h : LeadsTo (operand src) (selections src) 9 9 e) : Readable src e :=
  readable_of_unary (.unary_of_operand h (he.unaryOp?_head htight)) fun _ => h

/-- An expression that leads to the loop of its own level is read by all looser productions. -/
lemma readable_of_loop (hlevel : level < binaryLevels) (htight : e.tightness = level + 1)
    (h : LeadsTo (binary src · level) (binaryRest src · level) (1 + level) (level + 2) e) :
    Readable src e := by
  have hlevels : binaryLevels = 6 := rfl
  have hbinary (looser : Nat) (hle : looser ≤ level) :
      ReadBy (Parser.binary src · looser) (1 + looser) (looser + 1) e :=
    .looser (Nat.le_of_lt hlevel) (.of_loop hlevel h) hle
  exact {
    operand := fun h8 => by omega
    unary := fun h7 => by omega
    loop := fun looser hlooser hlt => by
      have hle : looser ≤ level := by omega
      rcases Nat.lt_or_eq_of_le hle with hlt' | rfl
      · exact .of_tighter hlooser (hbinary (looser + 1) hlt')
      · exact h
    binary := fun looser _ hlt => hbinary looser (by omega)
    expression := .expression_of_binary (hbinary 0 (Nat.zero_le _)) }

/-! ### Types and arguments -/

lemma length_enclosed (opening : Mark) (tokens : List Token) (closing : Mark) :
    (enclosed opening tokens closing).length = tokens.length + 2 := by
  simp [enclosed]

lemma gives_typeClause (htype : type.Canonical) (hfuel : type.tokens.length ≤ fuel)
    (hfollow : follow.head? ≠ some (.mark .leftBracket))
    (hahead : tokensOf c.ahead = type.tokens ++ follow) :
    Gives c (typeClause src fuel) fun type' c' =>
      type'.bare = type.bare ∧ tokensOf c'.ahead = follow := by
  induction htype generalizing fuel c follow with
  | plain name span =>
    simp only [TypeClause.tokens, TypeClause.argumentTokens, length_singleton] at hfuel hahead
    obtain ⟨fuel, rfl⟩ : ∃ k, fuel = k + 1 := ⟨fuel - 1, by omega⟩
    rw [typeClause]
    refine (gives_ident src hahead).bind fun found c₁ h₁ => ?_
    refine Gives.decline (by rw [h₁.2]; exact hfollow) (Gives.spanned fun span => ⟨?_, h₁.2⟩)
    simp [TypeClause.bare, h₁.1]
  | @applied name argument span hargument ih =>
    simp only [TypeClause.tokens, TypeClause.argumentTokens, enclosed, length_cons,
      length_append, length_nil, append_nil, cons_append,
      append_assoc, nil_append] at hfuel hahead
    obtain ⟨fuel, rfl⟩ : ∃ k, fuel = k + 1 := ⟨fuel - 1, by omega⟩
    rw [typeClause]
    refine (gives_ident src hahead).bind fun found c₁ h₁ => ?_
    refine Gives.accept h₁.2 fun c₂ h₂ => ?_
    refine (ih (by omega) (by simp) h₂).bind fun argument' c₃ h₃ => ?_
    refine (gives_expect src h₃.2).bind fun _ c₄ h₄ => Gives.spanned fun span => ⟨?_, h₄⟩
    simp [TypeClause.bare, h₁.1, h₃.1]

lemma closing_cases (h : closing = .rightParen ∨ closing = .rightBrace) :
    (Token.mark closing).attachment = none ∧ closing ≠ .comma := by
  rcases h with rfl | rfl <;> decide

lemma gives_argumentsRest (hes : ∀ e ∈ es, Readable src e) (hne : es ≠ [])
    (hclosing : closing = .rightParen ∨ closing = .rightBrace)
    (hfuel : 16 * (commaSeparated (es.map Expr.tokens)).length < fuel) (hahead : tokensOf c.ahead =
      commaSeparated (es.map Expr.tokens) ++ .mark closing :: follow) :
    Gives c (argumentsRest src fuel) fun es' c' =>
      es'.map Expr.bare = es.map Expr.bare ∧ tokensOf c'.ahead = .mark closing :: follow := by
  obtain ⟨hattach, hcomma⟩ := closing_cases hclosing
  induction es generalizing fuel c with
  | nil => contradiction
  | cons e es ih =>
    rw [forall_mem_cons] at hes
    have he := hes.1.expression
    obtain ⟨fuel, rfl⟩ : ∃ k, fuel = k + 1 := ⟨fuel - 1, by omega⟩
    rw [argumentsRest]
    cases es with
    | nil =>
      simp only [map_cons, map_nil, commaSeparated] at hfuel hahead
      refine (he fuel c _ (by omega) (stops_of_none hattach 0) hahead).bind fun e' c₁ h₁ => ?_
      refine Gives.decline ?_ (gives_pure ⟨by simp [h₁.1], h₁.2⟩)
      rw [h₁.2]
      simpa using hcomma
    | cons =>
      rw [map_cons, commaSeparated_cons (by simp)] at hfuel hahead
      rw [append_assoc, cons_append] at hahead
      rw [length_append, length_cons] at hfuel
      refine (he fuel c _ (by omega) (stops_of_none rfl 0) hahead).bind fun e' c₁ h₁ => ?_
      refine Gives.accept h₁.2 fun c₂ h₂ => ?_
      refine (ih hes.2 (by simp) (by omega) h₂).bind fun es' c₃ h₃ => gives_pure ⟨?_, h₃.2⟩
      rw [map_cons, map_cons, h₁.1, h₃.1]

lemma gives_arguments (hes : ∀ e ∈ es, Readable src e) {opening : Mark}
    (hclosing : closing = .rightParen ∨ closing = .rightBrace)
    (hfuel : 16 * (commaSeparated (es.map Expr.tokens)).length + 1 < fuel)
    (hahead : tokensOf c.ahead =
      enclosed opening (commaSeparated (es.map Expr.tokens)) closing ++ follow) :
    Gives c (arguments src fuel opening closing) fun es' c' =>
      es'.map Expr.bare = es.map Expr.bare ∧ tokensOf c'.ahead = follow := by
  obtain ⟨fuel, rfl⟩ : ∃ k, fuel = k + 1 := ⟨fuel - 1, by omega⟩
  rw [arguments]
  rw [enclosed, cons_append, cons_append, append_assoc] at hahead
  refine (gives_expect src hahead).bind fun _ c₁ h₁ => ?_
  cases es with
  | nil => exact Gives.accept h₁ fun c₂ h₂ => gives_pure ⟨rfl, h₂⟩
  | cons e es =>
    have hfirst : (tokensOf c₁.ahead).head? ≠ some (.mark closing) := by
      obtain ⟨first, more, hfirst, hparen, hbrace⟩ := e.exists_tokens_cons
      rw [h₁]
      cases es with
      | nil | cons next es => rcases hclosing with rfl | rfl <;> simp_all [commaSeparated]
    refine Gives.decline hfirst ?_
    refine (gives_argumentsRest hes (cons_ne_nil _ _) hclosing (by omega) h₁).bind
      fun es' c₂ h₂ => ?_
    exact (gives_expect src h₂.2).bind fun _ c₃ h₃ => gives_pure ⟨h₂.1, h₃⟩

/-! ### One lemma for each form of expression -/

lemma readable_literal (value : Literal) (span : Span) :
    Readable src (.literal value span) := by
  refine readable_of_operand (.literal value span) (Nat.le_refl 8) (.of_primary ?_)
  intro fuel c follow hfuel hstops hahead
  simp only [Expr.tokens] at hahead
  simp only [primary]
  refine Gives.here fun here => Gives.ran (run_peek? c) ?_
  rw [Cursor.next?_eq, hahead]
  rcases value with _ | _ | (_ | _) <;>
    exact Gives.advance hahead fun c₁ h₁ => Gives.spanned fun span => ⟨rfl, h₁⟩

lemma readable_paren {inner : Expr} (hinner : inner.Canonical) (ih : Readable src inner)
    (span : Span) : Readable src (.paren inner span) := by
  refine readable_of_operand (.paren span hinner) (Nat.le_refl 8) (.of_primary ?_)
  intro fuel c follow hfuel hstops hahead
  simp only [Expr.tokens, enclosed, length_cons, length_append, length_nil,
    cons_append, append_assoc, nil_append] at hfuel hahead
  simp only [primary]
  refine Gives.here fun here => Gives.ran (run_peek? c) ?_
  rw [Cursor.next?_eq, hahead]
  refine Gives.advance hahead fun c₁ h₁ => ?_
  refine (ih.expression fuel c₁ _ (by omega) (stops_of_none rfl 0) h₁).bind fun e' c₂ h₂ => ?_
  refine (gives_expect src h₂.2).bind fun _ c₃ h₃ => Gives.spanned fun span => ⟨?_, h₃⟩
  rw [Expr.bare, Expr.bare, h₂.1]

lemma readable_name (text : String) (span : Span) : Readable src (.name text span) := by
  refine readable_of_operand (.name text span) (Nat.le_refl 8) (.of_primary ?_)
  intro fuel c follow hfuel hstops hahead
  simp only [Expr.tokens] at hahead
  simp only [primary]
  refine Gives.here fun here => Gives.ran (run_peek? c) ?_
  rw [Cursor.next?_eq, hahead]
  refine (gives_ident src hahead).bind fun name c₁ h₁ => Gives.ran (run_get c₁) ?_
  have hahead₁ := h₁.2
  split
  case h_1 hnext | h_2 hnext =>
    rw [hnext] at hahead₁
    exact absurd (congrArg List.head? hahead₁).symm (hstops.head?_ne rfl (Nat.le_refl 9))
  case h_3 =>
    refine Gives.spanned fun span => ⟨?_, hahead₁⟩
    rw [Expr.bare, Expr.bare, h₁.1]

lemma readable_call (package : Option Name) (name : Name) (hargs : ∀ e ∈ args, e.Canonical)
    (ih : ∀ e ∈ args, Readable src e) (span : Span) :
    Readable src (.call package name args span) := by
  refine readable_of_operand (.call package name span hargs) (Nat.le_refl 8) (.of_primary ?_)
  intro fuel c follow hfuel hstops hahead
  cases package
  all_goals
    simp only [Expr.tokens, Expr.tokensEach_eq_map, nil_append, length_cons,
      length_enclosed, cons_append] at hfuel hahead
    simp only [primary]
    refine Gives.here fun here => Gives.ran (run_peek? c) ?_
    rw [Cursor.next?_eq, hahead]
    refine (gives_ident src hahead).bind fun found c₁ h₁ => Gives.ran (run_get c₁) ?_
  case none =>
    obtain ⟨opening, rest, hahead₁, hopening, -⟩ := map_eq_cons_iff.mp h₁.2
    obtain ⟨token, place⟩ := opening
    obtain rfl : token = .mark .leftParen := hopening
    rw [hahead₁]
    refine (gives_arguments ih (.inl rfl) (by omega) h₁.2).bind fun args' c₂ h₂ =>
      Gives.spanned fun span => ⟨?_, h₂.2⟩
    simp [Expr.bare, Name.bare, h₁.1, h₂.1]
  case some package =>
    obtain ⟨colons, rest, hahead₁, hcolons, hrest⟩ := map_eq_cons_iff.mp h₁.2
    obtain ⟨callee, more, rfl, hcallee, -⟩ := map_eq_cons_iff.mp hrest
    obtain ⟨token, place⟩ := colons
    obtain ⟨token', place'⟩ := callee
    obtain rfl : token = .mark .doubleColon := hcolons
    obtain rfl : token' = .ident name.text := hcallee
    rw [hahead₁]
    refine Gives.advance h₁.2 fun c₂ h₂ => ?_
    refine (gives_ident src h₂).bind fun callee c₃ h₃ => ?_
    refine (gives_arguments ih (.inl rfl) (by omega) h₃.2).bind fun args' c₄ h₄ =>
      Gives.spanned fun span => ⟨?_, h₄.2⟩
    simp [Expr.bare, Name.bare, h₁.1, h₃.1, h₄.1]

lemma readable_makeLength {length : Expr} (htype : type.Canonical) (hlength : length.Canonical)
    (ih : Readable src length) (span : Span) :
    Readable src (.makeArray type (some length) none span) := by
  refine readable_of_operand (.makeLength span htype hlength) (Nat.le_refl 8) (.of_primary ?_)
  intro fuel c follow hfuel hstops hahead
  simp only [Expr.tokens, enclosed, length_cons, length_append, length_nil,
    cons_append, append_assoc, nil_append, append_nil] at hfuel hahead
  simp only [primary]
  refine Gives.here fun here => Gives.ran (run_peek? c) ?_
  rw [Cursor.next?_eq, hahead]
  refine Gives.advance hahead fun c₁ h₁ => ?_
  refine (gives_typeClause htype (by omega) (by simp) h₁).bind fun type' c₂ h₂ => ?_
  refine Gives.accept h₂.2 fun c₃ h₃ => ?_
  refine (ih.expression fuel c₃ _ (by omega) (stops_of_none rfl 0) h₃).bind fun e' c₄ h₄ => ?_
  refine (gives_expect src h₄.2).bind fun _ c₅ h₅ => Gives.spanned fun span => ⟨?_, h₅⟩
  simp [Expr.bare, h₂.1, h₄.1]

lemma readable_makeElements {elements : List Expr} (htype : type.Canonical)
    (helements : ∀ e ∈ elements, e.Canonical) (ih : ∀ e ∈ elements, Readable src e) (span : Span) :
    Readable src (.makeArray type none (some elements) span) := by
  refine readable_of_operand (.makeElements span htype helements) (Nat.le_refl 8) (.of_primary ?_)
  intro fuel c follow hfuel hstops hahead
  simp only [Expr.tokens, Expr.tokensEach_eq_map, length_cons, length_append,
    length_enclosed, cons_append, append_assoc, append_nil] at hfuel hahead
  simp only [primary]
  refine Gives.here fun here => Gives.ran (run_peek? c) ?_
  rw [Cursor.next?_eq, hahead]
  refine Gives.advance hahead fun c₁ h₁ => ?_
  refine (gives_typeClause htype (by omega) (by simp [enclosed]) h₁).bind fun type' c₂ h₂ => ?_
  refine Gives.decline (by rw [h₂.2]; simp [enclosed]) (Gives.ran (run_at? _ c₂) ?_)
  rw [Cursor.next?_eq, h₂.2]
  refine (gives_arguments ih (.inr rfl) (by omega) h₂.2).bind fun elements' c₃ h₃ =>
    Gives.spanned fun span => ⟨?_, h₃.2⟩
  simp [Expr.bare, h₂.1, h₃.1]

lemma readable_index {place : Expr} (htarget : target.Canonical) (htight : 8 ≤ target.tightness)
    (hplace : place.Canonical) (iht : Readable src target) (ihp : Readable src place) (span : Span) :
    Readable src (.index target place span) := by
  refine readable_of_operand (.index span htarget htight hplace) (Nat.le_refl 8) ?_
  refine (iht.operand htight).round (Nat.le_refl 9) rfl (by simp [enclosed])
    (fun follow => stops_cons fun n hn => by cases hn; omega) ?_
  intro fuel target' c follow hfuel hbare hahead _
  simp only [enclosed, length_cons, length_append, length_nil,
    cons_append, append_assoc, nil_append] at hfuel hahead
  obtain ⟨c₁, haccept, h₁⟩ := run_accept hahead
  obtain ⟨place', c₂, hexpression, hplace', h₂⟩ :=
    ihp.expression fuel c₁ _ (by omega) (stops_of_none rfl 0) h₁
  obtain ⟨_, c₃, hexpect, h₃⟩ := gives_expect src h₂
  refine ⟨.index target' place' ⟨target'.span.start, max c₃.consumedTo target'.span.start⟩, c₃,
    ?_, h₃, ?_⟩
  · rw [Expr.bare, Expr.bare, hbare, hplace']
  · rw [selections, run_bind_ok haccept, if_pos rfl, run_bind_ok hexpression,
      run_bind_ok hexpect, run_bind_ok (run_spanFrom _ c₃)]

lemma readable_methodCall {receiver : Expr} (name : Name) (hreceiver : receiver.Canonical)
    (htight : 8 ≤ receiver.tightness) (hargs : ∀ e ∈ args, e.Canonical)
    (ihr : Readable src receiver) (ih : ∀ e ∈ args, Readable src e) (span : Span) :
    Readable src (.methodCall receiver name args span) := by
  refine readable_of_operand (.methodCall name span hreceiver htight hargs) (Nat.le_refl 8) ?_
  refine (ihr.operand htight).round (Nat.le_refl 9) rfl (by simp)
    (fun follow => stops_cons fun n hn => by cases hn; omega) ?_
  intro fuel receiver' c follow hfuel hbare hahead _
  simp only [Expr.tokensEach_eq_map, length_cons, length_enclosed, cons_append]
    at hfuel hahead
  have hdecline : (accept (.mark .leftBracket)).run c = .ok (false, c) :=
    run_decline (by rw [hahead]; simp)
  obtain ⟨c₁, haccept, h₁⟩ := run_accept hahead
  obtain ⟨callee, c₂, hident, hcallee, h₂⟩ := gives_ident src h₁
  have hfuel' : 16 * (commaSeparated (args.map Expr.tokens)).length + 1 < fuel := by omega
  obtain ⟨args', c₃, harguments, hargs', h₃⟩ := gives_arguments ih (.inl rfl) hfuel' h₂
  refine ⟨.methodCall receiver' callee args'
    ⟨receiver'.span.start, max c₃.consumedTo receiver'.span.start⟩, c₃, ?_, h₃, ?_⟩
  · simp [Expr.bare, Name.bare, hbare, hcallee, hargs']
  · rw [selections, run_bind_ok hdecline, if_neg Bool.false_ne_true, run_bind_ok haccept,
      if_pos rfl, run_bind_ok hident, run_bind_ok harguments, run_bind_ok (run_spanFrom _ c₃)]

lemma readable_unary (op : UnaryOp) {operand : Expr} (htight : 7 ≤ operand.tightness)
    (ih : Readable src operand) (span : Span) : Readable src (.unary op operand span) := by
  refine readable_of_unary ?_ fun h => absurd h (Nat.not_succ_le_self 7)
  refine .of_succ (by decide) fun fuel c follow hfuel hstops hahead => ?_
  simp only [Expr.tokens, length_cons, cons_append] at hfuel hahead
  simp only [unary]
  refine Gives.ran (run_peek? c) ?_
  rw [Cursor.next?_eq, hahead, head?_cons, Option.bind_some, unaryOp?_eq_some_iff.mpr rfl]
  refine Gives.here fun here => Gives.advance hahead fun c₁ h₁ => ?_
  refine (ih.unary htight fuel c₁ follow (by omega) hstops h₁).bind fun e' c₂ h₂ => ?_
  refine Gives.spanned fun span => ⟨?_, h₂.2⟩
  rw [Expr.bare, Expr.bare, h₂.1]

/-- The left operand leads to the loop of the level, one round of which reads the operator and the
right operand. -/
lemma readable_binary {left : Expr} (op : BinaryOp) {right : Expr}
    (hleft : op.tightness ≤ left.tightness) (hright : op.tightness < right.tightness)
    (ihl : Readable src left) (ihr : Readable src right) (span : Span) :
    Readable src (.binary left op right span) := by
  have hlevels : binaryLevels = 6 := rfl
  obtain ⟨level, hop, hlevel⟩ : ∃ level, op.tightness = level + 1 ∧ level < binaryLevels :=
    ⟨binaryLevel op, (binaryLevel_add_one op).symm, by cases op <;> decide⟩
  have hattach : ∀ n, (Token.mark op.mark).attachment = some n → n < level + 2 := by
    intro n hn
    rw [attachment_binaryOp, Option.some.injEq] at hn
    omega
  refine readable_of_loop hlevel hop ?_
  refine (ihl.loop level hlevel (by omega)).round (by omega) rfl (by simp)
    (fun follow => stops_cons hattach) ?_
  intro fuel left' c follow hfuel hbare hahead hstops
  simp only [length_cons] at hfuel
  obtain ⟨lexeme, rest, hlexemes, hlexeme, hrest⟩ := map_eq_cons_iff.mp hahead
  obtain ⟨right', c', hbinary, hright', h'⟩ :=
    ihr.binary (level + 1) hlevel (by omega) fuel ⟨rest, lexeme.span.stop⟩ follow (by omega)
      hstops hrest
  refine ⟨.binary left' op right' (left'.span.merge right'.span), c', ?_, h', ?_⟩
  · rw [Expr.bare, Expr.bare, hbare, hright']
  · have hnext : c.next?.bind (binaryOpAt? level) = some op := by
      rw [Cursor.next?_eq, hahead]
      exact binaryOpAt?_eq_some_iff.mpr ⟨rfl, hop⟩
    rw [binaryRest, run_bind_ok (run_peek? c), hnext]
    dsimp only at hbinary ⊢
    rw [run_bind_ok (run_advance hlexemes), run_bind_ok hbinary]

lemma readable_assign {value : Expr} (htarget : 1 ≤ target.tightness) (iht : Readable src target)
    (ihv : Readable src value) (span : Span) : Readable src (.assign target value span) where
  operand h := absurd h (Nat.not_succ_le_zero 7)
  unary h := absurd h (Nat.not_succ_le_zero 6)
  loop level _ h := absurd h (Nat.not_lt_zero level)
  binary level _ h := absurd h (Nat.not_lt_zero level)
  expression := by
    refine .of_succ (by decide) fun fuel c follow hfuel hstops hahead => ?_
    simp only [Expr.tokens, length_append, length_cons, append_assoc,
      cons_append] at hfuel hahead
    simp only [Parser.expression]
    have htarget' := iht.binary 0 (Nat.zero_le _) htarget fuel c _ (by omega)
      (stops_cons fun n hn => by cases hn; omega) hahead
    refine htarget'.bind fun target' c₁ h₁ => Gives.accept h₁.2 fun c₂ h₂ => ?_
    refine (ihv.expression fuel c₂ follow (by omega) hstops h₂).bind fun value' c₃ h₃ => ?_
    refine gives_pure ⟨?_, h₃.2⟩
    rw [Expr.bare, Expr.bare, h₁.1, h₃.1]

/-- **Canonical expressions are read** by all productions that they fit.

**Proof sketch.** By induction on the tree. An operand is read by `primary`, or leads the loop over
selections to one more round; a binary operator is read by one more round of the loop of its level,
with its left operand in hand. From there every looser production reads the expression too. -/
theorem readable_of_canonical (src : Source) (he : e.Canonical) : Readable src e := by
  induction he with
  | literal value span => exact readable_literal value span
  | paren span hinner ih => exact readable_paren hinner ih span
  | assign span _ htarget _ iht ihv => exact readable_assign htarget iht ihv span
  | unary op span _ htight ih => exact readable_unary op htight ih span
  | binary op span _ hl _ hr ihl ihr => exact readable_binary op hl hr ihl ihr span
  | call package name span hargs ih => exact readable_call package name hargs ih span
  | methodCall name span hreceiver htight hargs ihr ih =>
    exact readable_methodCall name hreceiver htight hargs ihr ih span
  | name text span => exact readable_name text span
  | makeLength span htype hlength ih => exact readable_makeLength htype hlength ih span
  | makeElements span htype helements ih => exact readable_makeElements htype helements ih span
  | index span htarget htight hplace iht ihp =>
    exact readable_index htarget htight hplace iht ihp span

end Parser

/-- **Expressions are read by precedence.** The lexemes of a canonical tree are read as that tree,
up to spans, and nothing behind them is consumed, whatever follows, if the next token cannot extend
an expression; and every tree that is read is canonical.

**Proof sketch.** Canonical trees are readable, `Parser.readable_of_canonical`. What was consumed is
what the tree is written as, `Parser.expressionsRead`, so it is exactly the lexemes of the tree. -/
theorem expression_precedence :
    (∀ e : Expr, e.Canonical → ∀ (src : Source) (lexemes rest : List Lexeme) (consumedTo fuel : Nat),
      tokensOf lexemes = e.tokens → (∀ next ∈ rest.head?, next.token.attachment = none) →
      nestingBound lexemes.length ≤ fuel →
      ∃ e' c', (Parser.expression src fuel).run ⟨lexemes ++ rest, consumedTo⟩ = .ok (e', c') ∧
        e'.bare = e.bare ∧ c'.ahead = rest) ∧
    ∀ (src : Source) (fuel : Nat) (c c' : Cursor) (e : Expr),
      (Parser.expression src fuel).run c = .ok (e, c') → e.Canonical := by
  constructor
  · intro e he src lexemes rest consumedTo fuel hlexemes hrest hfuel
    have hlength : lexemes.length = e.tokens.length := by
      rw [← hlexemes, tokensOf, length_map]
    have hstops : Stops 0 (tokensOf rest) := by
      intro n hn
      cases rest with
      | nil => cases hn
      | cons next =>
        have hnone : next.token.attachment = none := hrest next rfl
        rw [tokensOf_cons, head?_cons, Option.bind_some, hnone] at hn
        cases hn
    have henough : 16 * e.tokens.length ≤ fuel + 0 := by
      rw [nestingBound] at hfuel
      omega
    obtain ⟨e', c', hrun, hbare, -⟩ := (Parser.readable_of_canonical src he).expression fuel
      ⟨lexemes ++ rest, consumedTo⟩ (tokensOf rest) henough hstops (by simp [hlexemes])
    refine ⟨e', c', hrun, hbare, ?_⟩
    obtain ⟨used, hmoves, hused⟩ :=
      (Parser.expressionsRead src fuel).expression _ e' c' hrun
    have hsame : used.length = lexemes.length := by
      calc used.length = (tokensOf used).length := (length_map _).symm
        _ = e'.bare.tokens.length := by rw [← hused.tokens_eq, Expr.tokens_bare]
        _ = lexemes.length := by rw [hbare, Expr.tokens_bare, hlength]
    exact (append_inj hmoves.ahead hsame.symm).2.symm
  · intro src fuel c c' e hrun
    obtain ⟨used, -, hused⟩ := (Parser.expressionsRead src fuel).expression c e c' hrun
    exact hused.canonical

/-- `a[0] <- b - c - -d.f() * (x <- y)` before a closing parenthesis: the differences group to the
left, and the assignment inside needs its parentheses. -/
theorem expression_precedence_differences :
    let here : Span := default
    let name (text : String) : Expr := .name text here
    let product : Expr := .binary (.unary .neg (.methodCall (name "d") ⟨"f", here⟩ [] here) here) .mul
      (.paren (.assign (name "x") (name "y") here) here) here
    let e : Expr := .assign (.index (name "a") (.literal (.number "0") here) here)
      (.binary (.binary (name "b") .sub (name "c") here) .sub product here) here
    let lexemes : List Lexeme := e.tokens.map (⟨·, ⟨2, 3⟩⟩)
    let rest : List Lexeme := [⟨.mark .rightParen, ⟨3, 4⟩⟩, ⟨.mark .dot, ⟨4, 5⟩⟩]
    e.Canonical ∧ ∃ e' c',
      (Parser.expression ⟨5, []⟩ (nestingBound lexemes.length)).run ⟨lexemes ++ rest, 0⟩ =
        .ok (e', c') ∧
      e'.bare = e.bare ∧ c'.ahead = rest ∧ e'.Canonical := by
  intro here name product e lexemes rest
  have hproduct : product.Canonical :=
    .binary _ _ (.unary _ _ (.methodCall _ _ (.name _ _) (by decide) (by simp)) (by decide))
      (by decide) (.paren _ (.assign _ (.name _ _) (by decide) (.name _ _))) (by decide)
  have he : e.Canonical :=
    .assign _ (.index _ (.name _ _) (by decide) (.literal _ _)) (by decide)
      (.binary _ _ (.binary _ _ (.name _ _) (by decide) (.name _ _) (by decide)) (by decide)
        hproduct (by decide))
  obtain ⟨e', c', hrun, hbare, hahead⟩ := expression_precedence.1 e he ⟨5, []⟩ lexemes rest 0
    _ rfl (fun next hnext => by cases hnext; rfl) (Nat.le_refl _)
  exact ⟨he, e', c', hrun, hbare, hahead, expression_precedence.2 _ _ _ _ _ hrun⟩

end Syntax

end Parcel
