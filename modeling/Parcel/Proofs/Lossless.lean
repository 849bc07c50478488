import Mathlib
import Parcel.Proofs.Syntax.Canonical

/-!
# Parsing loses nothing

Writing the tree of a token list back as tokens gives the list again, up to semicolons: statements
and members may be followed by a semicolon that leaves no trace in the tree.

## Main results

* `Syntax.Parser.statementsRead` — what the productions of statements have consumed.
* `Syntax.parse_reads` — a tree stands on the lexemes it was read from, and is written as their
  tokens.
* `Syntax.parse_lossless` — and token lists with the same tree differ in semicolons only.
-/

namespace Parcel.Syntax

open List

variable {written : List Token} {used last : List Lexeme}

/-- The tokens that a tree is written as are those of the lexemes, up to semicolons. -/
abbrev Keeps (written : List Token) (used : List Lexeme) : Prop :=
  withoutSemicolons written = withoutSemicolons (tokensOf used)

@[simp] lemma withoutSemicolons_keyword (word : Keyword) (tokens : List Token) :
    withoutSemicolons (.keyword word :: tokens) = .keyword word :: withoutSemicolons tokens := rfl

@[simp] lemma withoutSemicolons_ident (name : String) (tokens : List Token) :
    withoutSemicolons (.ident name :: tokens) = .ident name :: withoutSemicolons tokens := rfl

@[simp] lemma withoutSemicolons_mark (symbol : Mark) (tokens : List Token) :
    withoutSemicolons (.mark symbol :: tokens) =
      if symbol = .semicolon then withoutSemicolons tokens
      else .mark symbol :: withoutSemicolons tokens := by
  rw [withoutSemicolons, filter_cons]
  split <;> simp_all [withoutSemicolons]

lemma Keeps.of_eq (h : written = tokensOf used) : Keeps written used :=
  congrArg withoutSemicolons h

lemma Keeps.append {more : List Token} (h : Keeps written used) (h' : Keeps more last) :
    Keeps (written ++ more) (used ++ last) := by
  rw [Keeps, tokensOf_append, withoutSemicolons_append, withoutSemicolons_append, h, h']

/-- A semicolon after what was read leaves no trace. -/
lemma Keeps.semicolon (h : Keeps written used) (span : Span) :
    Keeps written (used ++ [⟨.mark .semicolon, span⟩]) := by
  rw [Keeps, tokensOf_append, withoutSemicolons_append, h]
  exact (append_nil _).symm

namespace Parser

variable (src : Source) (fuel : Nat)

lemma parses_typeClause? :
    Parses src fuel 2 (typeClause? src fuel) fun used type =>
      Row used (type.toList.map .type) ∧ optionalTokens TypeClause.tokens type = tokensOf used := by
  refine .less fun c => ?_
  obtain ⟨found, hrun⟩ := run_atIdent? c
  refine .look hrun ?_
  cases found with
  | true =>
    exact .opens (parses_typeClause src fuel) (by decide) fun type used c₁ htype =>
      .done rfl htype.holds.1
  | false => exact .done rfl rfl

lemma parses_parenthesized :
    Parses src fuel 0 (parenthesized src fuel) fun used e =>
      Row used [.expr e] ∧ enclosed .leftParen e.tokens .rightParen = tokensOf used := by
  refine .less fun c => ?_
  refine .expect fun c₁ => .one (expressionsRead src fuel).whole fun inner used c₂ hinner => ?_
  refine .expect fun c₃ => .done rfl ?_
  simp [enclosed, hinner.holds.tokens_eq]

lemma parses_varDecl :
    Parses src fuel 0 (varDecl src fuel)
      (Read .decl fun used decl => decl.tokens = tokensOf used) := by
  refine .less fun c => .here (.expect fun c₁ => .ident fun name c₂ => ?_)
  refine .many (parses_typeClause? src fuel) fun type used c₃ htype => .accept (fun c₄ => ?_) ?_
  · refine .one (expressionsRead src fuel).whole fun value more c₅ hvalue => .node (fun _ => ⟨rfl, rfl⟩) fun span => ?_
    simp [VarDecl.tokens, optionalTokens, Expr.initializerTokens, ← htype, hvalue.holds.tokens_eq]
  · refine .node (fun span => ⟨rfl, append_nil _⟩) fun span => ?_
    simp [VarDecl.tokens, optionalTokens, ← htype]

lemma parses_simpleStatement :
    Parses src fuel 11 (simpleStatement src fuel)
      (Read .stmt fun used stmt => stmt.tokens = tokensOf used) := by
  refine .less fun c => .at ?_
  split
  next =>
    refine .opens (parses_varDecl src fuel) (by decide) fun decl used c₁ hdecl =>
      .pure ⟨hdecl.placed.copied rfl rfl, ?_⟩
    simpa [Stmt.tokens] using hdecl.holds
  next =>
    refine .opens (expressionsRead src fuel).whole (by decide) fun value used c₁ hvalue =>
      .pure ⟨hvalue.placed.copied rfl rfl, ?_⟩
    simpa [Stmt.tokens] using hvalue.holds.tokens_eq

/-! ### Statements -/

/-- What the productions of statements read, up to a depth of recursion. -/
structure StatementsRead (src : Source) (fuel : Nat) : Prop where
  statement : Parses src fuel 12 (statement src fuel) fun used stmt =>
    Row used [.stmt stmt] ∧ used ≠ [] ∧ Keeps stmt.tokens used
  bareStatement : Parses src fuel 11 (bareStatement src fuel)
    (Read .stmt fun used stmt => Keeps stmt.tokens used)
  blockRest : Parses src fuel 13 (blockRest src fuel) fun used stmts =>
    Row used (stmts.map .stmt) ∧ Keeps (stmts.flatMap Stmt.tokens ++ [Token.mark .rightBrace]) used

section Step

variable {src : Source} {fuel : Nat} (ih : StatementsRead src fuel)
include ih

lemma parses_statement :
    Parses src (fuel + 1) 12 (statement src (fuel + 1)) fun used stmt =>
      Row used [.stmt stmt] ∧ used ≠ [] ∧ Keeps stmt.tokens used := by
  intro c
  rw [statement]
  refine .opens ih.bareStatement (by decide) fun stmt used c₁ hstmt => .accept (fun c₂ => ?_) ?_
  · exact .done rfl ⟨by simp, hstmt.holds.semicolon _⟩
  · exact .done rfl ⟨hstmt.placed.ne_nil, hstmt.holds⟩

lemma parses_blockRest :
    Parses src (fuel + 1) 13 (blockRest src (fuel + 1)) fun used stmts =>
      Row used (stmts.map .stmt) ∧
        Keeps (stmts.flatMap Stmt.tokens ++ [Token.mark .rightBrace]) used := by
  intro c
  rw [blockRest]
  refine .peek ?_
  split
  next hnext => exact .advance hnext fun c₁ => .done rfl (.of_eq rfl)
  next => exact .unexpected (by simp)
  next =>
    refine .opensMany ih.statement (by decide) fun stmt used c₁ _ hstmt => ?_
    refine .many ih.blockRest fun stmts more c₂ hstmts => .done rfl ?_
    rw [flatMap_cons, append_assoc]
    exact hstmt.append hstmts

lemma parses_bareStatement :
    Parses src (fuel + 1) 11 (bareStatement src (fuel + 1))
      (Read .stmt fun used stmt => Keeps stmt.tokens used) := by
  have expression := (expressionsRead src fuel).whole
  have parenthesized := parses_parenthesized src fuel
  intro c
  rw [bareStatement]
  refine .here (.peek ?_)
  split
  next hnext =>
    refine .opens (parses_varDecl src fuel) (by decide) fun decl used c₁ hdecl =>
      .pure ⟨hdecl.placed.copied rfl rfl, ?_⟩
    simp [Keeps, Stmt.tokens, hdecl.holds]
  next hnext =>
    refine .advance hnext fun c₁ => ?_
    obtain ⟨starts, hstarts⟩ := run_atExpression? c₁
    obtain ⟨same, hsame⟩ := run_onSameLine src c₁
    refine .look hstarts (.look hsame ?_)
    split
    next =>
      refine .one expression fun value used c₂ hvalue => .node (fun _ => ⟨rfl, rfl⟩) fun span => ?_
      simp [Keeps, Stmt.tokens, optionalTokens, hvalue.holds.tokens_eq]
    next =>
      refine .node (fun _ => ⟨rfl, rfl⟩) fun span => ?_
      simp [Keeps, Stmt.tokens, optionalTokens]
  next hnext =>
    refine .advance hnext fun c₁ => .many parenthesized fun condition head c₂ hhead => ?_
    refine .many ih.statement fun body used c₃ hbody => .node (fun _ => ⟨rfl, rfl⟩) fun span => ?_
    simp [Keeps, Stmt.tokens, hhead, hbody.2]
  next hnext =>
    refine .advance hnext fun c₁ => .expect fun c₂ => ?_
    refine .one (parses_simpleStatement src fuel) fun initial first c₃ hinitial => .expect fun c₄ => ?_
    refine .one expression fun condition test c₅ hcondition => .expect fun c₆ => ?_
    refine .one (parses_simpleStatement src fuel) fun action step c₇ haction => .expect fun c₈ => ?_
    refine .many ih.statement fun body used c₉ hbody => .node (fun _ => ⟨rfl, rfl⟩) fun span => ?_
    simp [Keeps, Stmt.tokens, enclosed, hinitial.holds, hcondition.holds.tokens_eq, haction.holds,
      hbody.2]
  next hnext =>
    refine .advance hnext fun c₁ => .ident fun iterator c₂ => .expect fun c₃ => ?_
    refine .one expression fun lower first c₄ hlower => .expect fun c₅ => ?_
    refine .one expression fun upper last c₆ hupper => ?_
    refine .many ih.statement fun body used c₇ hbody => .node (fun _ => ⟨rfl, rfl⟩) fun span => ?_
    simp [Keeps, Stmt.tokens, hlower.holds.tokens_eq, hupper.holds.tokens_eq, hbody.2]
  next hnext =>
    refine .advance hnext fun c₁ => .many parenthesized fun count head c₂ hhead => ?_
    refine .many ih.statement fun body used c₃ hbody => .node (fun _ => ⟨rfl, rfl⟩) fun span => ?_
    simp [Keeps, Stmt.tokens, hhead, hbody.2]
  next hnext =>
    refine .advance hnext fun c₁ => .node (fun _ => ⟨rfl, rfl⟩) fun span => ?_
    simp [Keeps, Stmt.tokens]
  next hnext =>
    refine .advance hnext fun c₁ => .node (fun _ => ⟨rfl, rfl⟩) fun span => ?_
    simp [Keeps, Stmt.tokens]
  next hnext =>
    refine .advance hnext fun c₁ => .many parenthesized fun condition head c₂ hhead => ?_
    refine .many ih.statement fun thenBranch used c₃ hthen => .accept (fun c₄ => ?_) ?_
    · refine .many ih.statement fun elseBranch more c₅ helse => .node (fun _ => ⟨rfl, rfl⟩) fun span => ?_
      simp [Keeps, Stmt.tokens, hhead, hthen.2, helse.2]
    · refine .node (fun _ => ⟨rfl, rfl⟩) fun span => ?_
      simp [Keeps, Stmt.tokens, hhead, hthen.2]
  next hnext =>
    refine .advance hnext fun c₁ => .many ih.blockRest fun stmts used c₂ hstmts => ?_
    refine .node (fun _ => ⟨rfl, rfl⟩) fun span => ?_
    rw [Stmt.tokens, Stmt.tokensEach_eq_map, ← flatMap_def, enclosed, cons_append]
    simpa [Keeps] using hstmts
  next =>
    refine .opens expression (by decide) fun value used c₁ hvalue hmoves hnodes hmoved => ?_
    rw [nil_append] at hmoves hnodes hmoved ⊢
    refine Reads.spanFrom (fun hrow hne => .pure ⟨?_, ?_⟩) hmoves hnodes hmoved
    · -- the span is taken anew, and is that of the expression
      refine hvalue.placed.renewed fun ho => ?_
      rw [hmoves.place_start src hne, Nat.max_eq_left (Nat.le_of_lt (ho.extent_lt hne))]
    · simp [Keeps, Stmt.tokens, hvalue.holds.tokens_eq]

end Step

/-- **The productions of statements** consume exactly the tokens that the trees are written as, up
to semicolons. -/
theorem statementsRead (src : Source) (fuel : Nat) : StatementsRead src fuel := by
  induction fuel with
  | zero =>
    exact ⟨parses_exhausted (by omega), parses_exhausted (by omega), parses_exhausted (by omega)⟩
  | succ fuel ih => exact ⟨parses_statement ih, parses_bareStatement ih, parses_blockRest ih⟩

/-! ### Members -/

lemma parses_params :
    Parses src fuel 1 (params src fuel) fun used params => Row used (params.flatMap Param.nodes) ∧
      params ≠ [] ∧ commaSeparated (params.map Param.tokens) = tokensOf used := by
  induction fuel with
  | zero => exact parses_exhausted Nat.one_pos
  | succ fuel ih =>
    have hparam : Parses src fuel 0 (param src fuel) fun used param =>
        Row used param.nodes ∧ used ≠ [] ∧ param.tokens = tokensOf used := by
      refine .less fun c => .ident fun name c₁ => ?_
      refine .one (parses_typeClause src fuel) fun type used c₂ htype => .done rfl ⟨by simp, ?_⟩
      simp [Param.tokens, htype.holds.1]
    intro c
    rw [params]
    refine .opensMany hparam (by decide) fun first used c₁ _ hfirst => .accept (fun c₂ => ?_) ?_
    · refine .many ih fun rest more c₃ hrest => .done rfl ⟨cons_ne_nil _ _, ?_⟩
      rw [map_cons, commaSeparated_cons (by simpa using hrest.1), hfirst, hrest.2]
      simp
    · refine .done (by simp) ⟨cons_ne_nil _ _, ?_⟩
      simp [commaSeparated, hfirst]

lemma reads_parameters {β : Type} {src : Source} {fuel rank : Nat} {start c : Cursor}
    {nodes : List Node} {f : List Param → Parser β} {S : List Lexeme → β → Prop} (hf : ∀ params more
      c', commaSeparated (params.map Param.tokens) = tokensOf more → Reads src (fuel + 1) rank start
      true (used ++ more) (nodes ++ params.flatMap Param.nodes) c' (f params) S) :
    Reads src (fuel + 1) rank start true used nodes c (at? (.mark .rightParen) >>= fun closed =>
      if closed = true then pure [] >>= f else params src fuel >>= f) S := by
  refine .at ?_
  split
  next => exact .look rfl (by simpa using hf [] [] c rfl)
  next => exact .many (parses_params src fuel) fun params more c' h => hf params more c' h.2

lemma parses_functionDecl :
    Parses src fuel 0 (functionDecl src fuel)
      (Read .function fun used decl => Keeps decl.tokens used) := by
  refine .less fun c => .here (.expect fun c₁ => .ident fun name c₂ => .expect fun c₃ => ?_)
  refine reads_parameters fun params inner c₄ hparams => .expect fun c₅ => ?_
  refine .many (parses_typeClause? src fuel) fun type result c₆ htype => .at ?_
  split
  next =>
    refine .many (statementsRead src fuel).statement fun body last c₇ hbody => .node (fun _ => ⟨rfl, rfl⟩) fun span => ?_
    simp [Keeps, FunctionDecl.tokens, enclosed, hparams, htype, hbody.2]
  next => exact .unexpected (by simp)

lemma parses_member :
    Parses src fuel 1 (member src fuel) fun used member =>
      Row used member.nodes ∧ used ≠ [] ∧ Keeps member.tokens used := by
  refine .less fun c => .peek ?_
  split
  next hnext =>
    exact .advance hnext fun c₁ => .ident fun name c₂ => .done rfl ⟨by simp, .of_eq rfl⟩
  next hnext =>
    refine .advance hnext fun c₁ => .ident fun loaded c₂ => .accept (fun c₃ => ?_) ?_
    · exact .done rfl ⟨by simp, .of_eq rfl⟩
    · exact .done rfl ⟨by simp, .of_eq rfl⟩
  next hnext =>
    exact .opens (parses_varDecl src fuel) (by decide) fun decl used c₁ hdecl =>
      .done rfl ⟨hdecl.placed.ne_nil, .of_eq hdecl.holds⟩
  next hnext =>
    exact .opens (parses_functionDecl src fuel) (by decide) fun decl used c₁ hdecl =>
      .done rfl ⟨hdecl.placed.ne_nil, hdecl.holds⟩
  next => exact .unexpected (by simp)

/-- The members are read up to the end of the file: nothing is left ahead. -/
lemma reads_members (c : Cursor) :
    Reads src fuel 2 c false [] [] c (members src fuel) fun used members =>
      Row used (members.flatMap Member.nodes) ∧
        used = c.ahead ∧ Keeps (members.flatMap Member.tokens) used := by
  induction fuel generalizing c with
  | zero => exact parses_exhausted Nat.two_pos c
  | succ fuel ih =>
    rw [members]
    refine .peek ?_
    split
    next hnext =>
      have hahead : c.ahead = [] := by simpa [Cursor.next?] using hnext
      exact .done rfl ⟨hahead.symm, rfl⟩
    next =>
      refine .opensMany (parses_member src fuel) (by decide) fun first used c₁ _ hfirst => ?_
      -- the semicolon after the member, or none
      have hrest {used : List Lexeme} (hkeeps : Keeps first.tokens used) (c' : Cursor) :
          Reads src (fuel + 1) 2 c true used first.nodes c'
            (members src fuel >>= fun rest => pure (first :: rest)) fun used members =>
              Row used (members.flatMap Member.nodes) ∧
                used = c.ahead ∧ Keeps (members.flatMap Member.tokens) used := by
        intro hmoves
        refine Reads.rows (ih c') (fun rest more c₃ hrest => .done rfl ⟨?_, ?_⟩) hmoves
        · rw [hmoves.ahead, hrest.1]
        · exact hkeeps.append hrest.2
      refine .accept (fun c₂ => ?_) ?_
      · exact hrest (hfirst.semicolon _) c₂
      · exact hrest hfirst c₁

end Parser

lemma parse_reads {src : Source} {lexemes : List Lexeme} {program : Program}
    (h : parse src lexemes = .ok program) : Row lexemes program.nodes ∧
      withoutSemicolons program.tokens = withoutSemicolons (tokensOf lexemes) := by
  unfold parse at h
  split at h
  next members c hrun =>
    cases h
    have hends := (Parser.reads_members src (nestingBound lexemes.length) ⟨lexemes, 0⟩).ends
    obtain ⟨used, -, hrow, hused, hkeeps⟩ := hends.success _ _ hrun
    rw [hused] at hrow hkeeps
    exact ⟨hrow, hkeeps⟩
  next => cases h

/-- **Parsing loses nothing.** The tree of a token list is written back as that list, up to
semicolons; so two token lists with the same tree, up to spans, differ in semicolons only.

**Proof sketch.** Each production consumes what its tree is written as, `Parser.reads_members`. What
is written does not depend on the spans, `Program.tokens_bare`, so trees that are equal without them
are written as the same tokens. -/
theorem parse_lossless {src : Source} {lexemes : List Lexeme} {program : Program}
    (h : parse src lexemes = .ok program) :
    withoutSemicolons program.tokens = withoutSemicolons (tokensOf lexemes) ∧
    ∀ (src' : Source) (lexemes' : List Lexeme) (program' : Program),
      parse src' lexemes' = .ok program' → program'.bare = program.bare →
      withoutSemicolons (tokensOf lexemes') = withoutSemicolons (tokensOf lexemes) := by
  refine ⟨(parse_reads h).2, fun src' lexemes' program' h' hbare => ?_⟩
  calc withoutSemicolons (tokensOf lexemes')
      = withoutSemicolons program'.bare.tokens := by rw [Program.tokens_bare, (parse_reads h').2]
    _ = withoutSemicolons program.tokens := by rw [hbare, Program.tokens_bare]
    _ = withoutSemicolons (tokensOf lexemes) := (parse_reads h).2

/-- A function with a loop, once with those semicolons alone that have to stand there and once with
others too, and at other places in the text. -/
theorem parse_lossless_counting :
    let src : Source := ⟨9, []⟩
    let lexemes (place : Span) (tokens : List Token) : List Lexeme := tokens.map (⟨·, place⟩)
    let function : List Token := [.keyword .kwFunction, .ident "f", .mark .leftParen, .ident "n",
      .ident "int", .mark .rightParen, .mark .leftBrace, .keyword .kwFor, .mark .leftParen,
      .keyword .kwVar, .ident "i", .mark .arrow, .ident "n", .mark .semicolon, .mark .bang,
      .ident "done", .mark .leftParen, .ident "i", .mark .comma, .text ";", .mark .rightParen,
      .mark .semicolon, .ident "i", .mark .arrow, .ident "i", .mark .plus, .number "1",
      .mark .rightParen, .keyword .kwContinue]
    let sparse := lexemes ⟨0, 9⟩ (function ++ [.mark .rightBrace])
    let dense := lexemes ⟨3, 4⟩ (function ++ [.mark .semicolon, .mark .rightBrace, .mark .semicolon])
    let tree (here : Span) : Program :=
      let name (text : String) : Expr := .name text here
      ⟨[.function ⟨⟨"f", here⟩, [⟨⟨"n", here⟩, .mk "int" [] here⟩], none, .block [.forLoop
        (.declaration ⟨⟨"i", here⟩, none, some (name "n"), here⟩)
        (.unary .not (.call none ⟨"done", here⟩ [name "i", .literal (.string ";") here] here) here)
        (.expr (.assign (name "i")
          (.binary (name "i") .add (.literal (.number "1") here) here) here))
        (.continueLoop here) here] here, here⟩]⟩
    parse src sparse = .ok (tree ⟨0, 9⟩) ∧ parse src dense = .ok (tree ⟨3, 4⟩) ∧
    withoutSemicolons (tree ⟨0, 9⟩).tokens = withoutSemicolons (tokensOf sparse) ∧
    withoutSemicolons (tokensOf dense) = withoutSemicolons (tokensOf sparse) := by
  intro src lexemes function sparse dense tree
  have hsparse : parse src sparse = .ok (tree ⟨0, 9⟩) := by cbv
  have hdense : parse src dense = .ok (tree ⟨3, 4⟩) := by cbv
  exact ⟨hsparse, hdense, (parse_lossless hsparse).1, (parse_lossless hsparse).2 _ _ _ hdense rfl⟩

end Parcel.Syntax
