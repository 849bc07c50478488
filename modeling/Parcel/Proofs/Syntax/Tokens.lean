import Parcel.Proofs.Syntax.Tree
import Parcel.Token

/-!
# Writing trees as tokens

Every tree is written back as tokens in the order of its parts: keywords, marks, names and literals.
Semicolons are written in the head of a `for` only. Spans do not matter.
-/

namespace Parcel.Syntax

open List

def BinaryOp.mark : BinaryOp → Mark
  | .add => .plus
  | .sub => .minus
  | .mul => .star
  | .div => .slash
  | .rem => .percent
  | .eq => .equal
  | .ne => .notEqual
  | .lt => .less
  | .gt => .greater
  | .le => .lessEqual
  | .ge => .greaterEqual
  | .and => .andAnd
  | .or => .orOr

def UnaryOp.mark : UnaryOp → Mark
  | .neg => .minus
  | .plus => .plus
  | .not => .bang

def enclosed (opening : Mark) (inner : List Token) (closing : Mark) : List Token :=
  .mark opening :: inner ++ [.mark closing]

def commaSeparated : List (List Token) → List Token
  | [] => []
  | [part] => part
  | part :: next :: parts => part ++ .mark .comma :: commaSeparated (next :: parts)

def Literal.token : Literal → Token
  | .number text => .number text
  | .string value => .text value
  | .bool true => .keyword .kwTrue
  | .bool false => .keyword .kwFalse

mutual

def TypeClause.tokens : TypeClause → List Token
  | .mk name arguments _ => .ident name :: TypeClause.argumentTokens arguments

def TypeClause.argumentTokens : List TypeClause → List Token
  | [] => []
  | type :: types =>
    enclosed .leftBracket type.tokens .rightBracket ++ TypeClause.argumentTokens types

end

mutual

/-- An expression as tokens. -/
def Expr.tokens : Expr → List Token
  | .literal value _ => [value.token]
  | .paren inner _ => enclosed .leftParen inner.tokens .rightParen
  | .assign target value _ => target.tokens ++ .mark .arrow :: value.tokens
  | .unary op operand _ => .mark op.mark :: operand.tokens
  | .binary left op right _ => left.tokens ++ .mark op.mark :: right.tokens
  | .call package callee arguments _ =>
    (match package with
      | some package => [.ident package.text, .mark .doubleColon]
      | none => []) ++
    .ident callee.text ::
      enclosed .leftParen (commaSeparated (Expr.tokensEach arguments)) .rightParen
  | .methodCall receiver callee arguments _ =>
    receiver.tokens ++ .mark .dot :: .ident callee.text ::
      enclosed .leftParen (commaSeparated (Expr.tokensEach arguments)) .rightParen
  | .name text _ => [.ident text]
  | .makeArray type length elements _ =>
    .keyword .kwMake :: type.tokens ++
    (match length with
      | some length => enclosed .leftParen length.tokens .rightParen
      | none => []) ++
    (match elements with
      | some elements =>
        enclosed .leftBrace (commaSeparated (Expr.tokensEach elements)) .rightBrace
      | none => [])
  | .index target place _ =>
    target.tokens ++ enclosed .leftBracket place.tokens .rightBracket

/-- Expressions as tokens, each on its own. -/
def Expr.tokensEach : List Expr → List (List Token)
  | [] => []
  | e :: es => e.tokens :: Expr.tokensEach es

end

@[simp] lemma Expr.tokens_withSpan (span : Span) (e : Expr) :
    (e.withSpan span).tokens = e.tokens := by
  cases e with
  | makeArray type length elements =>
    cases length <;> cases elements <;> simp only [withSpan, tokens]
  | _ => simp only [withSpan, tokens]

/-- The tokens of a part that may be missing. -/
def optionalTokens {α : Type} (tokens : α → List Token) : Option α → List Token
  | some part => tokens part
  | none => []

def Expr.initializerTokens (value : Expr) : List Token :=
  .mark .arrow :: value.tokens

/-- A declaration as tokens. -/
def VarDecl.tokens (decl : VarDecl) : List Token :=
  .keyword .kwVar :: .ident decl.name.text :: optionalTokens TypeClause.tokens decl.type ++
    optionalTokens Expr.initializerTokens decl.initializer

mutual

/-- A statement as tokens. -/
def Stmt.tokens : Stmt → List Token
  | .declaration decl => decl.tokens
  | .ret value _ => .keyword .kwReturn :: optionalTokens Expr.tokens value
  | .whileLoop condition body _ =>
    .keyword .kwWhile :: enclosed .leftParen condition.tokens .rightParen ++ body.tokens
  | .forLoop initial condition action body _ =>
    .keyword .kwFor ::
      enclosed .leftParen (initial.tokens ++ .mark .semicolon :: condition.tokens ++
        .mark .semicolon :: action.tokens) .rightParen ++ body.tokens
  | .fromTo iterator lower upper body _ =>
    .keyword .kwFrom :: .ident iterator.text :: .mark .arrow :: lower.tokens ++
      .keyword .kwTo :: upper.tokens ++ body.tokens
  | .loop count body _ =>
    .keyword .kwLoop :: enclosed .leftParen count.tokens .rightParen ++ body.tokens
  | .breakLoop _ => [.keyword .kwBreak]
  | .continueLoop _ => [.keyword .kwContinue]
  | .block stmts _ => enclosed .leftBrace (Stmt.tokensEach stmts).flatten .rightBrace
  | .expr value => value.tokens
  | .ifElse condition thenBranch elseBranch _ =>
    .keyword .kwIf :: enclosed .leftParen condition.tokens .rightParen ++ thenBranch.tokens ++
    (match elseBranch with
      | some elseBranch => .keyword .kwElse :: elseBranch.tokens
      | none => [])

/-- Statements as tokens, each on its own. -/
def Stmt.tokensEach : List Stmt → List (List Token)
  | [] => []
  | stmt :: stmts => stmt.tokens :: Stmt.tokensEach stmts

end

def Param.tokens (param : Param) : List Token :=
  .ident param.name.text :: param.type.tokens

def FunctionDecl.tokens (decl : FunctionDecl) : List Token :=
  .keyword .kwFunction :: .ident decl.name.text ::
    enclosed .leftParen (commaSeparated (decl.params.map Param.tokens)) .rightParen ++
    optionalTokens TypeClause.tokens decl.returnType ++ decl.body.tokens

def Member.tokens : Member → List Token
  | .package name => [.keyword .kwPackage, .ident name.text]
  | .load loaded included =>
    .keyword .kwLoad :: .ident loaded.text :: if included then [.keyword .kwInclude] else []
  | .function decl => decl.tokens
  | .global decl => decl.tokens

/-- A source file as tokens. -/
def Program.tokens (program : Program) : List Token :=
  program.members.flatMap Member.tokens

/-- Tokens less the semicolons among them. -/
def withoutSemicolons (tokens : List Token) : List Token :=
  tokens.filter (· ≠ .mark .semicolon)

@[simp] lemma withoutSemicolons_append (tokens more : List Token) :
    withoutSemicolons (tokens ++ more) = withoutSemicolons tokens ++ withoutSemicolons more :=
  filter_append ..

/-! ### Equations -/

@[simp] lemma Expr.tokensEach_eq_map (es : List Expr) :
    Expr.tokensEach es = es.map Expr.tokens := by
  induction es with
  | nil => rfl
  | cons e es ih => rw [Expr.tokensEach, ih, map_cons]

@[simp] lemma Stmt.tokensEach_eq_map (stmts : List Stmt) :
    Stmt.tokensEach stmts = stmts.map Stmt.tokens := by
  induction stmts with
  | nil => rfl
  | cons stmt stmts ih => rw [Stmt.tokensEach, ih, map_cons]

lemma commaSeparated_cons {part : List Token} {parts : List (List Token)} (h : parts ≠ []) :
    commaSeparated (part :: parts) = part ++ .mark .comma :: commaSeparated parts := by
  cases parts with
  | nil => contradiction
  | cons => rw [commaSeparated]

/-! ### Spans do not matter -/

lemma map_bare_tokens {α : Type} {bare : α → α} {tokens : α → List Token} {parts : List α}
    (h : ∀ part ∈ parts, tokens (bare part) = tokens part) :
    (parts.map bare).map tokens = parts.map tokens := by
  rw [map_map]
  exact map_congr_left h

lemma optionalTokens_map {α : Type} {bare : α → α} {tokens : α → List Token}
    (h : ∀ part, tokens (bare part) = tokens part) (part : Option α) :
    optionalTokens tokens (part.map bare) = optionalTokens tokens part := by
  cases part with
  | none => rfl
  | some part => exact h part

@[simp] lemma TypeClause.tokens_bare (type : TypeClause) : type.bare.tokens = type.tokens := by
  induction type using TypeClause.structural with
  | mk name arguments span ih =>
    have hargs : TypeClause.argumentTokens (arguments.map TypeClause.bare) =
        TypeClause.argumentTokens arguments := by
      induction arguments with
      | nil => rfl
      | cons type types ihs =>
        rw [map_cons, TypeClause.argumentTokens, TypeClause.argumentTokens,
          ih type mem_cons_self, ihs fun t ht => ih t (mem_cons_of_mem _ ht)]
    rw [TypeClause.bare, TypeClause.tokens, TypeClause.tokens, TypeClause.bareEach_eq_map, hargs]

@[simp] lemma Expr.tokens_bare (e : Expr) : e.bare.tokens = e.tokens := by
  induction e using Expr.structural with
  | literal | name => rfl
  | paren inner span ih | unary op operand span ih => simp [Expr.bare, Expr.tokens, ih]
  | assign _ _ _ ih ih' | binary _ _ _ _ ih ih' | index _ _ _ ih ih' =>
    simp [Expr.bare, Expr.tokens, ih, ih']
  | call package name arguments span ih =>
    cases package <;> simp [Expr.bare, Expr.tokens, Name.bare, map_bare_tokens ih]
  | methodCall receiver name arguments span ihr ih =>
    simp [Expr.bare, Expr.tokens, Name.bare, ihr, map_bare_tokens ih]
  | makeArray type length elements span ihl ihe =>
    cases length with
    | none => cases elements with
      | none => simp [Expr.bare, Expr.tokens]
      | some es => simp [Expr.bare, Expr.tokens, map_bare_tokens (ihe es rfl)]
    | some length => cases elements with
      | none => simp [Expr.bare, Expr.tokens, ihl length rfl]
      | some es => simp [Expr.bare, Expr.tokens, ihl length rfl, map_bare_tokens (ihe es rfl)]

@[simp] lemma VarDecl.tokens_bare (decl : VarDecl) : decl.bare.tokens = decl.tokens := by
  have hvalue (value : Expr) : value.bare.initializerTokens = value.initializerTokens := by
    rw [Expr.initializerTokens, Expr.initializerTokens, Expr.tokens_bare]
  rw [VarDecl.tokens, VarDecl.tokens]
  simp only [VarDecl.bare, Name.bare, optionalTokens_map TypeClause.tokens_bare,
    optionalTokens_map hvalue]

@[simp] lemma Stmt.tokens_bare (stmt : Stmt) : stmt.bare.tokens = stmt.tokens := by
  induction stmt using Stmt.structural with
  | declaration decl | expr value => simp [Stmt.bare, Stmt.tokens]
  | ret => simp [Stmt.bare, Stmt.tokens, optionalTokens_map Expr.tokens_bare]
  | whileLoop condition body span ih | loop count body span ih => simp [Stmt.bare, Stmt.tokens, ih]
  | forLoop initial condition action body span ihi iha ihb =>
    simp [Stmt.bare, Stmt.tokens, ihi, iha, ihb]
  | fromTo iterator lower upper body span ih => simp [Stmt.bare, Stmt.tokens, Name.bare, ih]
  | breakLoop | continueLoop => rfl
  | block stmts span ih => simp only [Stmt.bare, Stmt.tokens, Stmt.bareEach_eq_map,
      Stmt.tokensEach_eq_map, map_bare_tokens ih]
  | ifElse condition thenBranch elseBranch span iht ihe =>
    cases elseBranch with
    | none => simp [Stmt.bare, Stmt.tokens, iht]
    | some elseBranch => simp [Stmt.bare, Stmt.tokens, iht, ihe elseBranch rfl]

@[simp] lemma FunctionDecl.tokens_bare (decl : FunctionDecl) :
    decl.bare.tokens = decl.tokens := by
  have hparam : ∀ param ∈ decl.params, param.bare.tokens = param.tokens := fun param _ => by
    simp [Param.bare, Param.tokens, Name.bare]
  rw [FunctionDecl.tokens, FunctionDecl.tokens]
  simp only [FunctionDecl.bare, Name.bare, map_bare_tokens hparam, Stmt.tokens_bare,
    optionalTokens_map TypeClause.tokens_bare]

lemma Member.tokens_bare (member : Member) : member.bare.tokens = member.tokens := by
  cases member with
  | package | load => rfl
  | function decl | global decl => simp [Member.bare, Member.tokens]

/-- **What a source file is written as** does not depend on its spans. -/
@[simp] theorem Program.tokens_bare (program : Program) :
    program.bare.tokens = program.tokens := by
  simp only [Program.tokens, Program.bare, flatMap_map, Member.tokens_bare]

end Parcel.Syntax
