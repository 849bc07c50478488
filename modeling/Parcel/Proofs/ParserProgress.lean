import Parcel.Proofs.Lossless

/-!
# The parser ends and makes progress

Productions call each other without consuming a token in between, but only those of a smaller rank;
so there are fewer than sixteen calls between two tokens that are consumed. With as much depth as
`parse` gives it, no production is ever short of it: what is wrong with a token list is always told
of the token at the cursor.

## Main results

* `Syntax.parser_makes_progress` — what productions do to the cursor, and where parsing fails.
-/

namespace Parcel.Syntax

/-- The productions that consume a token when they succeed. -/
inductive Production where
  | member
  | statement
  | expression
  | typeClause
  | arguments (opening closing : Mark)

namespace Production

def Result : Production → Type
  | member => Member
  | statement => Stmt
  | expression => Expr
  | typeClause => TypeClause
  | arguments _ _ => List Expr

/-- The production, with a bound on the depth of its recursion. -/
def parser (src : Source) (fuel : Nat) : (production : Production) → Parser production.Result
  | member => Parser.member src fuel
  | statement => Parser.statement src fuel
  | expression => Parser.expression src fuel
  | typeClause => Parser.typeClause src fuel
  | arguments opening closing => Parser.arguments src fuel opening closing

/-- How many calls without a token there may be in the course of the production. -/
def rank : Production → Nat
  | statement => 12
  | expression => 10
  | member | typeClause | arguments _ _ => 1

/-- Each production that succeeds has consumed a token. -/
lemma parses (src : Source) (fuel : Nat) (production : Production) :
    ∃ S : List Lexeme → production.Result → Prop,
      Parser.Parses src fuel production.rank (production.parser src fuel) S ∧
        ∀ used a, S used a → used ≠ [] := by
  cases production with
  | member => exact ⟨_, Parser.parses_member src fuel, fun used a h => h.2.1⟩
  | statement => exact ⟨_, (Parser.statementsRead src fuel).statement, fun used a h => h.2.1⟩
  | expression => exact ⟨_, (Parser.expressionsRead src fuel).whole, fun used a h => h.placed.ne_nil⟩
  | typeClause => exact ⟨_, Parser.parses_typeClause src fuel, fun used a h => h.placed.ne_nil⟩
  | arguments opening closing =>
    refine ⟨_, (Parser.expressionsRead src fuel).arguments opening closing, ?_⟩
    rintro used es ⟨-, inner, -, henclosed⟩ rfl
    cases henclosed

end Production

/-- **The parser ends and makes progress.** A production that succeeds has moved the cursor over one
token at least, and never back or past the end. One that fails does so at a cursor that it has moved
to: the error names the token there and has its span, or is at the end of the source if there is
none. With a depth of sixteen for each token ahead, and sixteen more, it is never the depth of the
recursion that is exceeded; so for every token list `parse` gives a tree, or an error at the cursor.

**Proof sketch.** One production calls another with less fuel by one. The other one has a smaller
rank, or a token was consumed before; as ranks are smaller than sixteen, sixteen times the number of
tokens ahead and the rank go down by one too, `Parser.Reads.enough`. -/
theorem parser_makes_progress (src : Source) :
    (∀ (production : Production) (fuel : Nat) (c : Cursor),
      (∀ a c', (production.parser src fuel).run c = .ok (a, c') →
        ∃ used, used ≠ [] ∧ c.Moves used c') ∧
      ∀ e, (production.parser src fuel).run c = .error e → ∃ stop used, c.Moves used stop ∧
        Parser.FailsAt src e.expected stop (production.parser src fuel) c ∧
        e.found = stop.next? ∧ e.span = stop.place src ∧
        (nestingBound c.ahead.length ≤ fuel → e.expected ≠ .lessNesting)) ∧
    ∀ (lexemes : List Lexeme) (e : SyntaxError), parse src lexemes = .error e →
      e.expected ≠ .lessNesting ∧ ∃ stop used, Cursor.Moves ⟨lexemes, 0⟩ used stop ∧
        Parser.FailsAt src e.expected stop
          (Parser.members src (nestingBound lexemes.length)) ⟨lexemes, 0⟩ ∧
        e.found = stop.next? ∧ e.span = stop.place src := by
  constructor
  · intro production fuel c
    obtain ⟨S, hparses, hne⟩ := production.parses src fuel
    have hends := (hparses c).ends
    refine ⟨fun a c' hrun => ?_, fun e hrun => ?_⟩
    · obtain ⟨used, hmoves, ha⟩ := hends.success a c' hrun
      exact ⟨used, hne used a ha, hmoves⟩
    · obtain ⟨expected, stop, used, hmoves, hfails, hdeep⟩ := hends.failure e hrun
      obtain rfl := Except.error.inj (hrun.symm.trans hfails.run)
      refine ⟨stop, used, hmoves, hfails, rfl, rfl, fun hbound hexpected => ?_⟩
      have hless := hdeep hexpected
      rw [nestingBound] at hbound
      omega
  · intro lexemes e h
    unfold parse at h
    split at h
    next => cases h
    next e' hrun =>
      cases h
      have hends := (Parser.reads_members src (nestingBound lexemes.length) ⟨lexemes, 0⟩).ends
      obtain ⟨expected, stop, used, hmoves, hfails, hdeep⟩ := hends.failure e hrun
      obtain rfl := Except.error.inj (hrun.symm.trans hfails.run)
      refine ⟨fun hexpected => ?_, stop, used, hmoves, hfails, rfl, rfl⟩
      have hless := hdeep hexpected
      rw [nestingBound] at hless
      dsimp only at hless
      omega

/-- `var x <- f(`, which ends where an argument has to start. -/
theorem parser_makes_progress_cut :
    let call : List Lexeme := [⟨.keyword .kwVar, ⟨0, 3⟩⟩, ⟨.ident "x", ⟨4, 5⟩⟩,
      ⟨.mark .arrow, ⟨6, 8⟩⟩, ⟨.ident "f", ⟨9, 10⟩⟩, ⟨.mark .leftParen, ⟨10, 11⟩⟩]
    let e : SyntaxError := ⟨.expression, none, ⟨11, 11⟩⟩
    parse ⟨11, []⟩ call = .error e ∧ e.expected ≠ .lessNesting ∧
      ∃ stop used, Cursor.Moves ⟨call, 0⟩ used stop ∧ e.found = stop.next? ∧
        e.span = stop.place ⟨11, []⟩ := by
  intro call e
  have hparse : parse ⟨11, []⟩ call = .error e := by cbv
  obtain ⟨hdeep, stop, used, hmoves, -, hfound, hspan⟩ :=
    (parser_makes_progress ⟨11, []⟩).2 call e hparse
  exact ⟨hparse, hdeep, stop, used, hmoves, hfound, hspan⟩

end Parcel.Syntax
