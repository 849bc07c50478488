import Parcel.Proofs.Syntax.Nodes
import Parcel.Syntax.Parser

/-!
# What productions do to the cursor

A production moves the cursor over lexemes from the front of those ahead, in order. `Parser.Reads`
says what holds of these lexemes and of the result if it succeeds, and where it fails if it does
not. `Parser.Gives` says that it succeeds. Both are closed under sequencing, and each step of a
parser has its rule.

A production in the course of which others are called has read a row of nodes so far, and calls are
nested as deep as the lexemes allow: sixteen levels for each of them, and the rank of the
production.
-/

namespace Parcel.Syntax

open List

def tokensOf (lexemes : List Lexeme) : List Token :=
  lexemes.map (·.token)

@[simp] lemma tokensOf_nil : tokensOf [] = [] := rfl

@[simp] lemma tokensOf_cons (lexeme : Lexeme) (lexemes : List Lexeme) :
    tokensOf (lexeme :: lexemes) = lexeme.token :: tokensOf lexemes := rfl

@[simp] lemma tokensOf_append (lexemes more : List Lexeme) :
    tokensOf (lexemes ++ more) = tokensOf lexemes ++ tokensOf more :=
  map_append ..

namespace Cursor

def next? (c : Cursor) : Option Token :=
  c.ahead.head?.map (·.token)

lemma next?_eq (c : Cursor) : c.next? = (tokensOf c.ahead).head? := by
  rw [next?, tokensOf, head?_map]

/-- The second cursor is reached from the first by consuming the lexemes `used`. -/
structure Moves (c : Cursor) (used : List Lexeme) (c' : Cursor) : Prop where
  ahead : c.ahead = used ++ c'.ahead
  consumedTo : c'.consumedTo = used.foldl (fun _ lexeme => lexeme.span.stop) c.consumedTo

lemma Moves.refl (c : Cursor) : c.Moves [] c :=
  ⟨rfl, rfl⟩

lemma Moves.trans {c c₁ c₂ : Cursor} {used more : List Lexeme} (h : c.Moves used c₁)
    (h' : c₁.Moves more c₂) : c.Moves (used ++ more) c₂ where
  ahead := by rw [h.ahead, h'.ahead, append_assoc]
  consumedTo := by rw [h'.consumedTo, h.consumedTo, foldl_append]

lemma exists_of_next? {c : Cursor} {token : Token} (h : c.next? = some token) :
    ∃ span rest, c.ahead = ⟨token, span⟩ :: rest := by
  obtain ⟨ahead, consumedTo⟩ := c
  cases ahead with
  | nil => simp [next?] at h
  | cons lexeme rest =>
    obtain rfl : lexeme.token = token := by simpa [next?] using h
    exact ⟨lexeme.span, rest, rfl⟩

/-- Where the next lexeme stands; the end of the source when there is none. -/
def place (src : Source) (c : Cursor) : Span :=
  (c.ahead.head?.map (·.span)).getD ⟨src.size, src.size⟩

section Moves

variable {c c' : Cursor} {used : List Lexeme} (h : c.Moves used c')
include h

lemma Moves.length_eq : c.ahead.length = used.length + c'.ahead.length := by
  rw [h.ahead, length_append]

lemma Moves.place_start (src : Source) (hne : used ≠ []) :
    (c.place src).start = (extent used).start := by
  obtain ⟨first, rest, rfl⟩ := exists_cons_of_ne_nil hne
  rw [place, h.ahead]
  rfl

lemma Moves.consumedTo_eq (hne : used ≠ []) : c'.consumedTo = (extent used).stop := by
  rw [h.consumedTo]
  obtain ⟨init, last, rfl⟩ := (eq_nil_or_concat used).resolve_left hne
  simp [extent]

end Moves

end Cursor

namespace Parser

variable {α β : Type}

variable {token : Token} {p : Parser α} {f : α → Parser β} {a : α} {follow : List Token}
  {c : Cursor} (src : Source)

/-! ### Runs of the steps of a parser -/

lemma run_bind (p : Parser α) (f : α → Parser β) (c : Cursor) :
    (p >>= f).run c = match p.run c with
      | .ok (a, c') => (f a).run c'
      | .error e => .error e := by
  rw [StateT.run_bind]
  cases p.run c <;> rfl

lemma run_bind_ok {c' : Cursor} (h : p.run c = .ok (a, c')) : (p >>= f).run c = (f a).run c' := by
  rw [run_bind, h]

lemma run_pure (a : α) (c : Cursor) : (pure a : Parser α).run c = .ok (a, c) := rfl

lemma run_get (c : Cursor) : (get : Parser Cursor).run c = .ok (c, c) := rfl

lemma run_peek? (c : Cursor) : peek?.run c = .ok (c.next?, c) := rfl

lemma run_here (c : Cursor) : (here src).run c = .ok (c.place src, c) := by
  obtain ⟨ahead, consumedTo⟩ := c
  cases ahead with
  | nil | cons => rfl

lemma run_spanFrom (start : Nat) (c : Cursor) :
    (spanFrom start).run c = .ok (⟨start, max c.consumedTo start⟩, c) := rfl

lemma run_at? (token : Token) (c : Cursor) :
    (at? token).run c = .ok (c.next? == some token, c) := rfl

lemma run_atIdent? (c : Cursor) : ∃ b, atIdent?.run c = .ok (b, c) := by
  rw [atIdent?, run_bind_ok (run_peek? c)]
  split <;> exact ⟨_, rfl⟩

lemma run_onSameLine (c : Cursor) : ∃ b, (onSameLine src).run c = .ok (b, c) := by
  rw [onSameLine, run_bind_ok (run_here src c)]
  exact ⟨_, rfl⟩

lemma run_atExpression? (c : Cursor) : ∃ b, atExpression?.run c = .ok (b, c) := by
  rw [atExpression?, run_bind_ok (run_peek? c)]
  split <;> exact ⟨_, rfl⟩

lemma run_advance {lexeme : Lexeme} {rest : List Lexeme} (h : c.ahead = lexeme :: rest) :
    advance.run c = .ok ((), ⟨rest, lexeme.span.stop⟩) := by
  obtain ⟨ahead, consumedTo⟩ := c
  obtain rfl : ahead = lexeme :: rest := h
  rfl

lemma run_next (h : c.next? = some token) :
    advance.run c = .ok ((), ⟨c.ahead.tail, (c.place src).stop⟩) ∧
      c.Moves [⟨token, c.place src⟩] ⟨c.ahead.tail, (c.place src).stop⟩ := by
  obtain ⟨span, rest, hahead⟩ := Cursor.exists_of_next? h
  have hplace : c.place src = span := by rw [Cursor.place, hahead]; rfl
  rw [hplace, run_advance hahead, hahead]
  exact ⟨rfl, hahead, rfl⟩

lemma run_unexpected (expected : Expectation) (c : Cursor) :
    (unexpected src expected : Parser α).run c = .error ⟨expected, c.next?, c.place src⟩ := by
  rw [unexpected, run_bind_ok (run_peek? c), run_bind_ok (run_here src c)]
  rfl

/-! ### Failure -/

/-- A run of a production from a cursor comes to the cursor `stop`, and fails there since something
else is expected. -/
inductive FailsAt (src : Source) (expected : Expectation) (stop : Cursor) :
    ∀ {α : Type}, Parser α → Cursor → Prop
  | here {α : Type} : FailsAt src expected stop (unexpected src expected : Parser α) stop
  | first {α β : Type} {p : Parser α} {f : α → Parser β} {c : Cursor} :
    FailsAt src expected stop p c → FailsAt src expected stop (p >>= f) c
  | later {α β : Type} {p : Parser α} {f : α → Parser β} {a : α} {c c' : Cursor} :
    p.run c = .ok (a, c') → FailsAt src expected stop (f a) c' →
    FailsAt src expected stop (p >>= f) c

lemma FailsAt.run {src : Source} {expected : Expectation} {stop : Cursor}
    (h : FailsAt src expected stop p c) :
    p.run c = .error ⟨expected, stop.next?, stop.place src⟩ := by
  induction h with
  | here => exact run_unexpected src expected stop
  | first _ ih => rw [run_bind, ih]
  | later hrun _ ih => rw [run_bind_ok hrun, ih]

/-! ### What is consumed -/

/-- How a run of `p` ends that is at the cursor after a production has moved over `used` from its
start. If it succeeds, `S` holds of all that the production has moved over and of the result. If it
fails, it does so further on, and for want of depth only if there is less of it than sixteen for
each lexeme ahead and the rank, which counts up to fifteen. -/
structure Ends (src : Source) (depth rank : Nat) (start : Cursor) (used : List Lexeme) (c : Cursor)
    (p : Parser α) (S : List Lexeme → α → Prop) : Prop where
  success : ∀ a c', p.run c = .ok (a, c') → ∃ more, c.Moves more c' ∧ S (used ++ more) a
  failure : ∀ e, p.run c = .error e → ∃ expected stop more, c.Moves more stop ∧
    FailsAt src expected stop p c ∧
    (expected = .lessNesting → depth < 16 * start.ahead.length + min rank 15)

/-- A production has moved from its start over `used` to the cursor, where the nodes stand, and goes
on with `p`. If it is known to have `moved`, there is a lexeme among these. -/
def Reads (src : Source) (depth rank : Nat) (start : Cursor) (moved : Bool) (used : List Lexeme)
    (nodes : List Node) (c : Cursor) (p : Parser α) (S : List Lexeme → α → Prop) : Prop :=
  start.Moves used c → Row used nodes → (moved = true → used ≠ []) →
    Ends src depth rank start used c p S

/-- The production as a whole, wherever it starts. -/
def Parses (src : Source) (depth rank : Nat) (p : Parser α) (S : List Lexeme → α → Prop) : Prop :=
  ∀ c, Reads src depth rank c false [] [] c p S

/-- What was read is a node on the lexemes that were moved over, and `Q` holds of it. -/
structure Read (toNode : α → Node) (Q : List Lexeme → α → Prop) (used : List Lexeme) (a : α) :
    Prop where
  placed : Placed used (toNode a)
  holds : Q used a

section Whole

variable {src : Source} {depth rank : Nat} {S : List Lexeme → α → Prop}

lemma Reads.ends {c : Cursor} (h : Reads src depth rank c false [] [] c p S) :
    Ends src depth rank c [] c p S :=
  h (.refl c) .nil fun h => absurd h Bool.false_ne_true

lemma Ends.after {start c : Cursor} {used : List Lexeme} {R : List Lexeme → α → Prop}
    (h : Ends src depth rank start [] c p R) (hS : ∀ more a, R more a → S (used ++ more) a) :
    Ends src depth rank start used c p S := by
  refine ⟨fun a c' hrun => ?_, h.failure⟩
  obtain ⟨more, hmore, ha⟩ := h.success a c' hrun
  exact ⟨more, hmore, hS more a ha⟩

lemma Parses.less (h : Parses src (depth + 1) rank p S) : Parses src depth rank p S := by
  refine fun c hmoves hnodes hmoved => ⟨(h c hmoves hnodes hmoved).success, fun e hrun => ?_⟩
  obtain ⟨expected, stop, more, hmore, hfails, hdeep⟩ := (h c hmoves hnodes hmoved).failure e hrun
  exact ⟨expected, stop, more, hmore, hfails, fun h => Nat.lt_of_succ_lt (hdeep h)⟩

lemma parses_exhausted (hrank : 0 < rank) : Parses src 0 rank (unexpected src .lessNesting) S := by
  refine fun c _ _ _ => ⟨fun a c' hrun => ?_, fun e hrun => ?_⟩
  · rw [run_unexpected] at hrun
    cases hrun
  · exact ⟨_, c, [], .refl c, .here, fun _ => by omega⟩

end Whole

namespace Reads

variable {src : Source} {depth rank rank' : Nat} {start c c' : Cursor} {moved moved' : Bool}
  {used more : List Lexeme} {nodes nodes' : List Node} {S : List Lexeme → β → Prop}
  {R T : List Lexeme → α → Prop} {give : α → List Node} {Q : List Lexeme → α → Prop}

lemma pure {b : β} (h : S used b) :
    Reads src depth rank start moved used nodes c (pure b) S := by
  refine fun _ _ _ => ⟨fun a c' hrun => ?_, fun e hrun => ?_⟩
  · cases hrun
    exact ⟨[], .refl c, by rwa [append_nil]⟩
  · cases hrun

lemma failed {expected : Expectation} (h : expected ≠ .lessNesting) {p : Parser β}
    (hp : FailsAt src expected c p c) : Reads src depth rank start moved used nodes c p S := by
  refine fun _ _ _ => ⟨fun a c' hrun => ?_, fun e hrun => ?_⟩
  · rw [hp.run] at hrun
    cases hrun
  · exact ⟨expected, c, [], .refl c, hp, fun h' => absurd h' h⟩

lemma unexpected {expected : Expectation} (h : expected ≠ .lessNesting) :
    Reads src depth rank start moved used nodes c (unexpected src expected) S :=
  failed h .here

/-- A first part that succeeds. -/
lemma ran (hp : p.run c = .ok (a, c')) (hmore : c.Moves more c')
    (hrow : Row used nodes → Row (used ++ more) nodes')
    (hmoved : moved' = true → moved = true ∨ more ≠ [])
    (hf : Reads src depth rank start moved' (used ++ more) nodes' c' (f a) S) :
    Reads src depth rank start moved used nodes c (p >>= f) S := by
  intro hmoves hnodes hne
  have hne' (h : moved' = true) : used ++ more ≠ [] := by
    rcases hmoved h with hbefore | hmore
    · exact append_ne_nil_of_left_ne_nil (hne hbefore) more
    · exact append_ne_nil_of_right_ne_nil used hmore
  have hends := hf (hmoves.trans hmore) (hrow hnodes) hne'
  constructor
  · intro b c₂ hrun
    rw [run_bind_ok hp] at hrun
    obtain ⟨last, hlast, hb⟩ := hends.success b c₂ hrun
    exact ⟨more ++ last, hmore.trans hlast, by rwa [← append_assoc]⟩
  · intro e hrun
    rw [run_bind_ok hp] at hrun
    obtain ⟨expected, stop, last, hlast, hfails, hdeep⟩ := hends.failure e hrun
    exact ⟨expected, stop, more ++ last, hmore.trans hlast, .later hp hfails, hdeep⟩

/-- **Sequencing.** What the two parts consume is consumed in a row. -/
theorem step {next : α → List Node}
    (hp : start.Moves used c → (moved = true → used ≠ []) → Ends src depth rank start [] c p R)
    (hrow : ∀ more a, R more a → Row used nodes → Row (used ++ more) (next a))
    (hmoved : ∀ more a, R more a → moved' = true → moved = true ∨ more ≠ [])
    (hf : ∀ a more c', R more a →
      Reads src depth rank start moved' (used ++ more) (next a) c' (f a) S) :
    Reads src depth rank start moved used nodes c (p >>= f) S := by
  intro hmoves hnodes hne
  have hends := hp hmoves hne
  cases hrun : p.run c with
  | ok result =>
    obtain ⟨a, c'⟩ := result
    obtain ⟨more, hmore, ha⟩ := hends.success a c' hrun
    exact ran hrun hmore (hrow more a ha) (hmoved more a ha) (hf a more c' ha) hmoves hnodes hne
  | error e =>
    obtain ⟨expected, stop, more, hmore, hfails, hdeep⟩ := hends.failure e hrun
    refine ⟨fun b c' hrun' => ?_, fun _ _ => ⟨expected, stop, more, hmore, hfails.first, hdeep⟩⟩
    rw [hfails.first.run] at hrun'
    cases hrun'

/-- **Calls.** There is depth enough for the call if there was for the caller, since the call has
fewer lexemes ahead or less rank. -/
theorem enough (hp : Reads src depth rank' c false [] [] c p R)
    (hroom : used ≠ [] ∨ rank' < min rank 15) (hmoves : start.Moves used c) :
    Ends src (depth + 1) rank start [] c p R := by
  refine ⟨hp.ends.success, fun e hrun => ?_⟩
  obtain ⟨expected, stop, more, hmore, hfails, hdeep⟩ := hp.ends.failure e hrun
  refine ⟨expected, stop, more, hmore, hfails, fun h => ?_⟩
  have hlength := hmoves.length_eq
  have hless := hdeep h
  rcases hroom with hne | hrank
  · have hpos := length_pos_iff.mpr hne
    omega
  · omega

/-! Calls after a lexeme, of productions that read a row of nodes, or one of them. -/

lemma rows (hp : Reads src depth rank' c false [] [] c p fun used a => Row used (give a) ∧ Q used a)
    (hf : ∀ a more c', Q more a → Reads src (depth + 1) rank start true (used ++ more) (nodes ++
      give a) c' (f a) S) : Reads src (depth + 1) rank start true used nodes c (p >>= f) S :=
  step (fun hmoves hne => hp.enough (.inl (hne rfl)) hmoves)
    (fun _ _ h hnodes => hnodes.append h.1) (fun _ _ _ _ => .inl rfl) fun a more c' h =>
      hf a more c' h.2

lemma many (hp : Parses src depth rank' p fun used a => Row used (give a) ∧ Q used a) (hf : ∀ a more
      c', Q more a → Reads src (depth + 1) rank start true (used ++ more) (nodes ++ give a) c' (f a)
      S) : Reads src (depth + 1) rank start true used nodes c (p >>= f) S :=
  rows (hp c) hf

lemma one {toNode : α → Node} (hp : Parses src depth rank' p (Read toNode Q)) (hf : ∀ a more c',
      Read toNode Q more a → Reads src (depth + 1) rank start true (used ++ more) (nodes ++ [toNode
      a]) c' (f a) S) : Reads src (depth + 1) rank start true used nodes c (p >>= f) S :=
  step (fun hmoves hne => (hp c).enough (.inl (hne rfl)) hmoves)
    (fun _ _ h hnodes => hnodes.append h.placed.row) (fun _ _ _ _ => .inl rfl) hf

lemma last (hp : Parses src depth rank' p R) (hT : ∀ more a, R more a → T (used ++ more) a) :
    Reads src (depth + 1) rank start true used nodes c p T :=
  fun hmoves _ hne => ((hp c).enough (.inl (hne rfl)) hmoves).after hT

/-! Calls that a production opens with, of others with less rank. -/

lemma opensMany
    (hp : Parses src depth rank' p fun used a => Row used (give a) ∧ used ≠ [] ∧ Q used a)
    (hrank : rank' < min rank 15) (hf : ∀ a more c', more ≠ [] → Q more a → Reads src (depth + 1)
      rank start true (used ++ more) (nodes ++ give a) c' (f a) S) :
    Reads src (depth + 1) rank start moved used nodes c (p >>= f) S :=
  step (fun hmoves _ => (hp c).enough (.inr hrank) hmoves) (fun _ _ h hnodes => hnodes.append h.1)
    (fun _ _ h _ => .inr h.2.1) fun a more c' h => hf a more c' h.2.1 h.2.2

lemma opens {toNode : α → Node} (hp : Parses src depth rank' p (Read toNode Q))
    (hrank : rank' < min rank 15) (hf : ∀ a more c', Read toNode Q more a → Reads src (depth + 1)
      rank start true (used ++ more) (nodes ++ [toNode a]) c' (f a) S) :
    Reads src (depth + 1) rank start moved used nodes c (p >>= f) S :=
  step (fun hmoves _ => (hp c).enough (.inr hrank) hmoves)
    (fun _ _ h hnodes => hnodes.append h.placed.row) (fun _ _ h _ => .inr h.placed.ne_nil) hf

lemma opensLast (hp : Parses src depth rank' p R) (hrank : rank' < min rank 15)
    (hT : ∀ more a, R more a → T (used ++ more) a) :
    Reads src (depth + 1) rank start moved used nodes c p T :=
  fun hmoves _ _ => ((hp c).enough (.inr hrank) hmoves).after hT

/-! Steps of a production itself. -/

/-- A step that only looks at the cursor consumes nothing. -/
lemma look (hp : p.run c = .ok (a, c))
    (hf : Reads src depth rank start moved used nodes c (f a) S) :
    Reads src depth rank start moved used nodes c (p >>= f) S :=
  ran hp (.refl c) (fun h => by rwa [append_nil]) .inl (by rwa [append_nil])

lemma peek {f : Option Token → Parser β}
    (h : Reads src depth rank start moved used nodes c (f c.next?) S) :
    Reads src depth rank start moved used nodes c (peek? >>= f) S :=
  look (run_peek? c) h

lemma here {f : Span → Parser β}
    (h : Reads src depth rank start moved used nodes c (f (c.place src)) S) :
    Reads src depth rank start moved used nodes c (Parser.here src >>= f) S :=
  look (run_here src c) h

/-- A lexeme is consumed. -/
lemma taken (hnext : c.next? = some token)
    (hp : p.run c = .ok (a, ⟨c.ahead.tail, (c.place src).stop⟩))
    (hrow : Row used nodes → Row (used ++ [⟨token, c.place src⟩]) nodes')
    (hf : ∀ c', Reads src depth rank start true (used ++ [⟨token, c.place src⟩]) nodes' c' (f a) S) :
    Reads src depth rank start moved used nodes c (p >>= f) S :=
  ran hp (run_next src hnext).2 hrow (fun _ => .inr (cons_ne_nil _ _)) (hf _)

lemma advance {f : Unit → Parser β} (hnext : c.next? = some token)
    (hf : ∀ c',
      Reads src depth rank start true (used ++ [⟨token, c.place src⟩]) nodes c' (f ()) S) :
    Reads src depth rank start moved used nodes c (Parser.advance >>= f) S :=
  taken hnext (run_next src hnext).1 (·.token _) hf

lemma expect {f : Unit → Parser β}
    (hf : ∀ c',
      Reads src depth rank start true (used ++ [⟨token, c.place src⟩]) nodes c' (f ()) S) :
    Reads src depth rank start moved used nodes c (Parser.expect src token >>= f) S := by
  by_cases hnext : c.next? = some token
  · refine taken hnext ?_ (·.token _) hf
    rw [Parser.expect, run_bind_ok (run_at? token c), hnext, beq_self_eq_true, if_pos rfl,
      (run_next src hnext).1]
  · have hfails : FailsAt src (.token token) c (Parser.expect src token) c := by
      refine .later (run_at? token c) ?_
      rw [beq_false_of_ne hnext, if_neg Bool.false_ne_true]
      exact .here
    exact failed (by simp) hfails.first

lemma accept {f : Bool → Parser β}
    (htaken : ∀ c',
      Reads src depth rank start true (used ++ [⟨token, c.place src⟩]) nodes c' (f true) S)
    (hdeclined : Reads src depth rank start moved used nodes c (f false) S) :
    Reads src depth rank start moved used nodes c (Parser.accept token >>= f) S := by
  by_cases hnext : c.next? = some token
  · refine taken hnext ?_ (·.token _) htaken
    rw [Parser.accept, run_bind_ok (run_at? token c), hnext, beq_self_eq_true, if_pos rfl,
      run_bind_ok (run_next src hnext).1, run_pure]
  · refine look ?_ hdeclined
    rw [Parser.accept, run_bind_ok (run_at? token c), beq_false_of_ne hnext,
      if_neg Bool.false_ne_true, run_pure]

lemma ident {f : Name → Parser β}
    (hf : ∀ text c', Reads src depth rank start true (used ++ [⟨.ident text, c.place src⟩])
      (nodes ++ [.name ⟨text, c.place src⟩]) c' (f ⟨text, c.place src⟩) S) :
    Reads src depth rank start moved used nodes c (Parser.ident src >>= f) S := by
  by_cases hnext : ∃ text, c.next? = some (.ident text)
  · obtain ⟨text, hnext⟩ := hnext
    have hname : Placed [⟨.ident text, c.place src⟩] (.name ⟨text, c.place src⟩) :=
      .of_row (by simp) .nil fun _ => rfl
    refine taken hnext ?_ (·.append hname.row) (hf text)
    rw [Parser.ident, run_bind_ok (run_here src c), run_bind_ok (run_peek? c), hnext]
    exact (run_bind_ok (run_next src hnext).1).trans (run_pure _ _)
  · have hfails : FailsAt src .identifier c (Parser.ident src) c := by
      refine .later (run_here src c) (.later (run_peek? c) ?_)
      split
      next text htext => exact absurd ⟨text, htext⟩ hnext
      next => exact .here
    exact failed (by simp) hfails.first

lemma forget (hsub : nodes'.Sublist nodes)
    (h : Reads src depth rank start moved used nodes' c p R) :
    Reads src depth rank start moved used nodes c p R :=
  fun hmoves hnodes => h hmoves (hnodes.sublist hsub)

lemma spanFrom {n : Nat} {f : Span → Parser β}
    (hf : Row used nodes → used ≠ [] →
      Reads src depth rank start true used nodes c (f ⟨n, max (extent used).stop n⟩) S) :
    Reads src depth rank start true used nodes c (Parser.spanFrom n >>= f) S := by
  intro hmoves hnodes hne
  refine look (run_spanFrom n c) ?_ hmoves hnodes hne
  rw [hmoves.consumedTo_eq (hne rfl)]
  exact hf hnodes (hne rfl)

/-- The end of a production that reads a row of nodes. -/
lemma done {give : β → List Node} {Q : List Lexeme → β → Prop} {b : β} (hgive : give b = nodes)
    (hQ : Q used b) : Reads src depth rank start moved used nodes c (Pure.pure b)
      fun used b => Row used (give b) ∧ Q used b :=
  fun hmoves hnodes => pure ⟨hgive ▸ hnodes, hQ⟩ hmoves hnodes

/-- **The end of a production that reads a node**: only the span of the node remains to be added. -/
theorem node {toNode : β → Node} {Q : List Lexeme → β → Prop} {f : Span → β}
    (hnode : ∀ span, (toNode (f span)).span = span ∧ (toNode (f span)).children = nodes)
    (hQ : ∀ span, Q used (f span)) :
    Reads src depth rank start true used nodes c
      (Parser.spanFrom (start.place src).start >>= fun span => Pure.pure (f span))
      (Read toNode Q) := by
  intro hmoves hnodes hne
  refine spanFrom (fun hrow hused => pure ⟨?_, hQ _⟩) hmoves hnodes hne
  exact .spanned hused ((hnode _).2.symm ▸ hrow) (fun _ => hmoves.place_start src hused) (hnode _).1

end Reads

lemma Reads.at {src : Source} {depth rank : Nat} {start : Cursor} {moved : Bool}
    {used : List Lexeme} {nodes : List Node} {S : List Lexeme → β → Prop} {f : Bool → Parser β}
    (h : Reads src depth rank start moved used nodes c (f (c.next? == some token)) S) :
    Reads src depth rank start moved used nodes c (at? token >>= f) S :=
  Reads.look (run_at? token c) h

/-! ### Success -/

/-- The production succeeds at the cursor, with a result and a cursor of which `P` holds. -/
def Gives (c : Cursor) (p : Parser α) (P : α → Cursor → Prop) : Prop :=
  ∃ a c', p.run c = .ok (a, c') ∧ P a c'

section Gives

variable {c : Cursor} {P : β → Cursor → Prop}

lemma Gives.ran {c' : Cursor} (hp : p.run c = .ok (a, c')) (hf : Gives c' (f a) P) :
    Gives c (p >>= f) P := by
  obtain ⟨b, c₂, hrun, hb⟩ := hf
  refine ⟨b, c₂, ?_, hb⟩
  rw [run_bind_ok hp, hrun]

/-- **Sequencing.** The second part succeeds after whatever the first one gives. -/
theorem Gives.bind {R : α → Cursor → Prop} (hp : Gives c p R)
    (hf : ∀ a c', R a c' → Gives c' (f a) P) : Gives c (p >>= f) P := by
  obtain ⟨a, c₁, hrun, ha⟩ := hp
  exact .ran hrun (hf a c₁ ha)

lemma gives_pure {b : β} (h : P b c) : Gives c (pure b) P :=
  ⟨b, c, rfl, h⟩

lemma Gives.here {src : Source} {f : Span → Parser β} (h : ∀ span, Gives c (f span) P) :
    Gives c (Parser.here src >>= f) P := by
  exact Gives.ran (run_here src c) (h _)

lemma Gives.spanned {start : Nat} {f : Span → β} (h : ∀ span, P (f span) c) :
    Gives c (spanFrom start >>= fun span => pure (f span)) P :=
  Gives.ran (run_spanFrom start c) (gives_pure (h _))

lemma Gives.advance {f : Unit → Parser β} (hahead : tokensOf c.ahead = token :: follow)
    (hf : ∀ c', tokensOf c'.ahead = follow → Gives c' (f ()) P) : Gives c (advance >>= f) P := by
  obtain ⟨lexeme, rest, hlexemes, rfl, rfl⟩ := map_eq_cons_iff.mp hahead
  exact .ran (run_advance hlexemes) (hf _ rfl)

lemma run_accept (hahead : tokensOf c.ahead = token :: follow) :
    ∃ c', (accept token).run c = .ok (true, c') ∧ tokensOf c'.ahead = follow := by
  obtain ⟨lexeme, rest, hlexemes, rfl, rfl⟩ := map_eq_cons_iff.mp hahead
  refine ⟨⟨rest, lexeme.span.stop⟩, ?_, rfl⟩
  rw [accept, run_bind_ok (run_at? _ c), Cursor.next?_eq, hahead, head?_cons,
    beq_self_eq_true, if_pos rfl, run_bind_ok (run_advance hlexemes), run_pure]

lemma run_decline (hnext : (tokensOf c.ahead).head? ≠ some token) :
    (accept token).run c = .ok (false, c) := by
  rw [accept, run_bind_ok (run_at? token c), Cursor.next?_eq, beq_false_of_ne hnext,
    if_neg Bool.false_ne_true, run_pure]

lemma Gives.accept {f : Bool → Parser β} (hahead : tokensOf c.ahead = token :: follow)
    (hf : ∀ c', tokensOf c'.ahead = follow → Gives c' (f true) P) :
    Gives c (Parser.accept token >>= f) P := by
  obtain ⟨c', hrun, h⟩ := run_accept hahead
  exact .ran hrun (hf c' h)

lemma Gives.decline {f : Bool → Parser β} (hnext : (tokensOf c.ahead).head? ≠ some token)
    (hf : Gives c (f false) P) : Gives c (Parser.accept token >>= f) P :=
  Gives.ran (run_decline hnext) hf

end Gives

lemma gives_expect (hahead : tokensOf c.ahead = token :: follow) :
    Gives c (expect src token) fun _ c' => tokensOf c'.ahead = follow := by
  obtain ⟨lexeme, rest, hlexemes, rfl, rfl⟩ := map_eq_cons_iff.mp hahead
  refine Gives.ran (run_at? _ c) ?_
  rw [Cursor.next?_eq, hahead, head?_cons, beq_self_eq_true, if_pos rfl]
  exact ⟨(), _, run_advance hlexemes, rfl⟩

lemma gives_ident {name : String} (hahead : tokensOf c.ahead = .ident name :: follow) :
    Gives c (ident src) fun found c' => found.text = name ∧ tokensOf c'.ahead = follow := by
  refine Gives.here fun span => Gives.ran (run_peek? c) ?_
  rw [Cursor.next?_eq, hahead, head?_cons]
  exact Gives.advance hahead fun c' h => gives_pure ⟨rfl, h⟩

end Parser

end Parcel.Syntax
