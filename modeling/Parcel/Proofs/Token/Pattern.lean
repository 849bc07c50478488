import Mathlib.Tactic.Common
import Parcel.Token.Lexer

/-!
# The patterns of tokens

Which texts are tokens, said apart from the scanner: keywords and marks by their spelling, numerals,
identifiers and string literals by their pattern. The scanner takes a text that is a token, and no
longer text at the same place is one.
-/

namespace Parcel.Token

open List

variable {c d : Char} {body value rest after more text : List Char} {n : Nat} {word : String}
  {symbol : Mark} {p : Char → Bool} {token : Token}

/-- The character that an escaped one stands for. -/
def escaped? : Char → Option Char
  | 'n' => some '\n'
  | 't' => some '\t'
  | '\\' => some '\\'
  | '"' => some '"'
  | _ => none

/-- The inside of a string literal, and the text it stands for: a backslash escapes the character
after it, which is none that ends the line; a pair that is no escape stands for itself. -/
inductive LiteralBody : List Char → List Char → Prop
  | nil : LiteralBody [] []
  | plain {c : Char} {body value} : c ≠ '"' → c ≠ '\\' → LiteralBody body value →
    LiteralBody (c :: body) (c :: value)
  | escape {c d : Char} {body value} : escaped? c = some d → LiteralBody body value →
    LiteralBody ('\\' :: c :: body) (d :: value)
  | other {c : Char} {body value} : escaped? c = none → c ≠ '\n' → LiteralBody body value →
    LiteralBody ('\\' :: c :: body) ('\\' :: c :: value)

/-- The token that a text denotes. -/
inductive Denotes : List Char → Token → Prop
  | keyword (word : Keyword) : Denotes word.spelling.toList (.keyword word)
  | number {c : Char} {more} : c.isDigit = true → (∀ d ∈ more, isNumberPart d = true) →
    Denotes (c :: more) (.number (String.ofList (c :: more)))
  | ident {c : Char} {more} : isIdentStart c = true → (∀ d ∈ more, isIdentPart d = true) →
    (∀ word : Keyword, word.spelling ≠ String.ofList (c :: more)) →
    Denotes (c :: more) (.ident (String.ofList (c :: more)))
  | text {body value : List Char} : LiteralBody body value →
      Denotes ('"' :: body ++ ['"']) (.text (String.ofList value))
  | mark (symbol : Mark) : Denotes symbol.spelling.toList (.mark symbol)

/-- A comment, without the line end after it. -/
def IsComment (text : List Char) : Prop :=
  ∃ body, text = '/' :: '/' :: body ∧ ∀ c ∈ body, c ≠ '\n'

/-- The texts that are skipped: one or more blanks and line ends, or a comment. -/
def Skipped (text : List Char) : Prop :=
  (text ≠ [] ∧ ∀ c ∈ text, isSeparator c = true) ∨ IsComment text

/-- Before `after`, the text cannot be extended to a longer one that denotes a token or is
skipped. -/
def Longest (text after : List Char) : Prop :=
  ∀ more, more <+: after → more ≠ [] →
    (∀ token, ¬ Denotes (text ++ more) token) ∧ ¬ Skipped (text ++ more)

/-! ### String literals -/

lemma escaped?_eq_none_iff : escaped? c = none ↔ c ≠ 'n' ∧ c ≠ 't' ∧ c ≠ '\\' ∧ c ≠ '"' := by
  unfold escaped?
  split <;> simp_all

lemma ne_newline_of_escaped? (h : escaped? c = some d) : c ≠ '\n' := by
  rintro rfl
  cases h

lemma unescape_plain (h : c ≠ '\\') (body : List Char) :
    unescape (c :: body) = c :: unescape body := by
  rw [unescape] <;> simp_all

/-- The scanner reads the inside of a literal as it should. -/
lemma LiteralBody.unescape_eq (h : LiteralBody body value) : unescape body = value := by
  induction h with
  | nil => rfl
  | plain _ hc _ ih => rw [unescape_plain hc, ih]
  | @escape c d body value hd _ ih =>
    unfold escaped? at hd
    split at hd <;> cases hd <;> rw [unescape, ih]
  | other hc _ _ ih =>
    obtain ⟨hn, ht, hbackslash, hquote⟩ := escaped?_eq_none_iff.mp hc
    rw [unescape, ih] <;> assumption

/-- A backslash and the character after it are passed over together. -/
lemma literalLength_escape (hc : c ≠ '\n') (h : literalLength rest = .ok n) :
    literalLength ('\\' :: c :: rest) = .ok (n + 2) := by
  rw [literalLength, if_neg hc, h]

lemma LiteralBody.literalLength_eq (h : LiteralBody body value) (after : List Char) :
    literalLength (body ++ '"' :: after) = .ok (body.length + 1) := by
  induction h with
  | nil => rfl
  | plain hquote hbackslash _ ih =>
    rw [cons_append, literalLength, ih]
    · rfl
    all_goals simp_all
  | escape hd _ ih => exact literalLength_escape (ne_newline_of_escaped? hd) ih
  | other _ hc _ ih => exact literalLength_escape hc ih

lemma literalBody_of_literalLength (h : literalLength rest = .ok n) :
    ∃ body after value, rest = body ++ '"' :: after ∧ n = body.length + 1 ∧
      LiteralBody body value := by
  fun_induction literalLength rest generalizing n with
  | case1 | case3 | case4 | case6 | case8 => cases h
  | case2 rest =>
    cases h
    exact ⟨[], rest, [], rfl, rfl, .nil⟩
  | case5 c rest hc m hm ih =>
    cases h
    obtain ⟨body, after, value, rfl, rfl, hbody⟩ := ih hm
    cases hd : escaped? c with
    | some => exact ⟨'\\' :: c :: body, after, _, rfl, rfl, .escape hd hbody⟩
    | none => exact ⟨'\\' :: c :: body, after, _, rfl, rfl, .other hd hc hbody⟩
  | case7 c rest hquote hlast hbackslash m hm ih =>
    cases h
    obtain ⟨body, after, value, rfl, rfl, hbody⟩ := ih hm
    have hquote' : c ≠ '"' := fun heq => hquote heq
    have hbackslash' : c ≠ '\\' := by
      rintro rfl
      cases body <;> exact hbackslash _ _ rfl rfl
    exact ⟨c :: body, after, _, rfl, rfl, .plain hquote' hbackslash' hbody⟩

/-! ### Words and marks -/

lemma ofSpelling?_spelling (word : Keyword) : Keyword.ofSpelling? word.spelling = some word := by
  cases word <;> decide

lemma ofSpelling?_eq_none_iff :
    Keyword.ofSpelling? word = none ↔ ∀ k : Keyword, k.spelling ≠ word := by
  constructor
  · rintro h k rfl
    rw [ofSpelling?_spelling] at h
    cases h
  · intro h
    rw [Keyword.ofSpelling?, find?_eq_none]
    intro k _
    simpa using h k

lemma spelling_of_ofSpelling? {k : Keyword} (h : Keyword.ofSpelling? word = some k) :
    k.spelling = word := by
  simpa using find?_some h

lemma denotes_ofWord (hc : isIdentStart c = true) (hmore : ∀ d ∈ more, isIdentPart d = true) :
    Denotes (c :: more) (ofWord (String.ofList (c :: more))) := by
  unfold ofWord
  split
  next k hk =>
    have hword := Denotes.keyword k
    rwa [spelling_of_ofSpelling? hk, String.toList_ofList] at hword
  next hnone => exact .ident hc hmore (ofSpelling?_eq_none_iff.mp hnone)

lemma spelling_isWord (word : Keyword) :
    ∃ c more, word.spelling.toList = c :: more ∧ isIdentStart c = true ∧
      ∀ d ∈ more, isIdentPart d = true := by
  cases word <;> exact ⟨_, _, rfl, rfl, all_eq_true.mp rfl⟩

lemma markOfPair?_eq_some_iff :
    markOfPair? c d = some symbol ↔ symbol.spelling.toList = [c, d] := by
  constructor
  · intro h
    unfold markOfPair? at h
    repeat
      obtain ⟨⟨rfl, rfl⟩, hsymbol⟩ | ⟨-, hrest⟩ := ite_eq_iff.mp h
      · cases hsymbol
        rfl
      replace h := hrest
    cases h
  · intro h
    cases symbol <;> cases h <;> rfl

lemma markOfChar?_eq_some_iff : markOfChar? c = some symbol ↔ symbol.spelling.toList = [c] := by
  constructor
  · intro h
    unfold markOfChar? at h
    repeat
      obtain ⟨rfl, hsymbol⟩ | ⟨-, hrest⟩ := ite_eq_iff.mp h
      · cases hsymbol
        rfl
      replace h := hrest
    cases h
  · intro h
    cases symbol <;> cases h <;> rfl

lemma markOfPair?_separator (h : isSeparator d = true) (c : Char) : markOfPair? c d = none := by
  rw [Option.eq_none_iff_forall_ne_some]
  intro symbol hsymbol
  have hspelling := markOfPair?_eq_some_iff.mp hsymbol
  cases symbol <;> cases hspelling <;> cases h

/-! ### The token at the start of a text -/

/-- Where the characters that go on a word or a numeral end. -/
lemma take_length_takeWhile (p : Char → Bool) (rest : List Char) :
    rest.take (rest.takeWhile p).length = rest.takeWhile p :=
  prefix_iff_eq_take.mp (List.takeWhile_prefix p) |>.symm

lemma isDigit_of_isIdentStart (h : isIdentStart c = true) : c.isDigit = false := by
  rw [isIdentStart, Bool.or_eq_true] at h
  rw [Bool.eq_false_iff]
  intro hdigit
  rcases h with h | h
  · have halpha : (decide ('A'.val ≤ c.val ∧ c.val ≤ 'Z'.val) ||
        decide ('a'.val ≤ c.val) && decide (c.val ≤ 'z'.val)) = true := h
    simp only [Char.isDigit, Bool.or_eq_true, Bool.and_eq_true, decide_eq_true_eq, ge_iff_le,
      UInt32.le_iff_toNat_le, Char.reduceVal, UInt32.reduceToNat] at halpha hdigit
    omega
  · obtain rfl : c = '_' := by simpa using h
    cases hdigit

lemma first_number (h : c.isDigit = true) (rest : List Char) :
    first c rest = .ok (.number (String.ofList (c :: rest.takeWhile isNumberPart)),
      (rest.takeWhile isNumberPart).length) := by
  rw [first, if_pos h]

lemma first_word (h : isIdentStart c = true) (rest : List Char) :
    first c rest = .ok (ofWord (String.ofList (c :: rest.takeWhile isIdentPart)),
      (rest.takeWhile isIdentPart).length) := by
  rw [first, if_neg (by simp [isDigit_of_isIdentStart h]), if_pos h]

lemma first_quote (rest : List Char) :
    first '"' rest = match literalLength rest with
      | .ok n => .ok (.text (String.ofList (unescape (rest.take (n - 1)))), n)
      | .error n => .error n := rfl

lemma first_mark (hdigit : c.isDigit = false) (hword : isIdentStart c = false) (hquote : c ≠ '"')
    (rest : List Char) : first c rest = match markAt? c rest with
      | some (symbol, n) => .ok (.mark symbol, n)
      | none => .error 0 := by
  rw [first, if_neg (by simp [hdigit]), if_neg (by simp [hword])]
  exact if_neg hquote

/-- **What the scanner takes denotes the token that it gives.** -/
theorem denotes_of_first (h : first c rest = .ok (token, n)) :
    n ≤ rest.length ∧ Denotes (c :: rest.take n) token := by
  by_cases hdigit : c.isDigit = true
  · rw [first_number hdigit] at h
    cases h
    refine ⟨(List.takeWhile_prefix _).length_le, ?_⟩
    rw [take_length_takeWhile]
    exact .number hdigit fun d hd => all_eq_true.mp all_takeWhile d hd
  by_cases hword : isIdentStart c = true
  · rw [first_word hword] at h
    cases h
    refine ⟨(List.takeWhile_prefix _).length_le, ?_⟩
    rw [take_length_takeWhile]
    exact denotes_ofWord hword fun d hd => all_eq_true.mp all_takeWhile d hd
  by_cases hquote : c = '"'
  · subst hquote
    rw [first_quote] at h
    split at h
    next m hm =>
      cases h
      obtain ⟨body, after, value, rfl, rfl, hbody⟩ := literalBody_of_literalLength hm
      have htake : (body ++ '"' :: after).take (body.length + 1) = body ++ ['"'] := by
        rw [take_length_add_append]
        rfl
      refine ⟨by simp, ?_⟩
      rw [htake, Nat.add_sub_cancel, take_left, hbody.unescape_eq]
      exact .text hbody
    next => cases h
  rw [first_mark (by simpa using hdigit) (by simpa using hword) hquote, markAt?] at h
  cases hpair : rest.head?.bind (markOfPair? c) with
  | some symbol =>
    rw [hpair] at h
    cases h
    obtain ⟨d, hd, hsymbol⟩ := Option.bind_eq_some_iff.mp hpair
    obtain ⟨after, rfl⟩ := head?_eq_some_iff.mp hd
    have hmark := Denotes.mark symbol
    rw [markOfPair?_eq_some_iff.mp hsymbol] at hmark
    exact ⟨by simp, hmark⟩
  | none =>
    rw [hpair] at h
    cases hchar : markOfChar? c with
    | none =>
      rw [hchar] at h
      cases h
    | some symbol =>
      rw [hchar] at h
      cases h
      have hmark := Denotes.mark symbol
      rw [markOfChar?_eq_some_iff.mp hchar] at hmark
      exact ⟨Nat.zero_le _, hmark⟩

/-! ### The longest match -/

/-- A blank ends every word and every numeral. -/
lemma not_part_of_separator (h : isSeparator d = true) :
    isNumberPart d = false ∧ isIdentPart d = false := by
  simp only [isSeparator, Bool.or_eq_true, decide_eq_true_eq] at h
  rcases h with ((rfl | rfl) | rfl) | rfl <;> decide

lemma takeWhile_eq_nil (h : ∀ d ∈ after.head?, p d = false) : after.takeWhile p = [] := by
  cases after with
  | nil => rfl
  | cons d => rw [takeWhile_cons, h d rfl, if_neg Bool.false_ne_true]

/-- Before `after`, the scanner takes `c :: more` or more than that. If it takes no more it gives
the token, and so it does before a blank and at the end of the text. -/
def Reaches (c : Char) (more : List Char) (token : Token) (after : List Char) : Prop :=
  ∃ token' extra, first c (more ++ after) = .ok (token', more.length + extra) ∧
    (extra = 0 → token' = token) ∧ ((∀ d ∈ after.head?, isSeparator d = true) → extra = 0)

/-- Words and numerals go on as long as their characters do. -/
lemma reaches_run (token : List Char → Token)
    (hfirst : ∀ rest, first c rest = .ok (token (rest.takeWhile p), (rest.takeWhile p).length))
    (hmore : ∀ d ∈ more, p d = true) (hp : ∀ d, isSeparator d = true → p d = false) :
    Reaches c more (token more) after := by
  refine ⟨token (more ++ after.takeWhile p), (after.takeWhile p).length, ?_, fun hzero => ?_,
    fun hafter => ?_⟩
  · rw [hfirst, takeWhile_append_of_pos hmore, length_append]
  · rw [length_eq_zero_iff.mp hzero, append_nil]
  · rw [takeWhile_eq_nil fun d hd => hp d (hafter d hd), length_nil]

lemma reaches_word (hc : isIdentStart c = true) (hmore : ∀ d ∈ more, isIdentPart d = true)
    (after : List Char) : Reaches c more (ofWord (String.ofList (c :: more))) after :=
  reaches_run (fun more => ofWord (String.ofList (c :: more))) (first_word hc) hmore
    fun _ hd => (not_part_of_separator hd).2

lemma mark_start (h : symbol.spelling.toList = c :: more) :
    c.isDigit = false ∧ isIdentStart c = false ∧ c ≠ '"' ∧ isSeparator c = false ∧
      (c = '/' → more = []) ∧ more.length ≤ 1 := by
  cases symbol <;> cases h <;> decide

/-- A mark of two characters is taken whole, and one of a single character may go on to a pair. -/
lemma reaches_mark (h : symbol.spelling.toList = c :: more) :
    Reaches c more (.mark symbol) after := by
  obtain ⟨hdigit, hword, hquote, -, -, hlength⟩ := mark_start h
  rw [Reaches, first_mark hdigit hword hquote]
  match more, hlength with
  | [d], _ =>
    refine ⟨.mark symbol, 0, ?_, fun _ => rfl, fun _ => rfl⟩
    rw [markAt?, singleton_append, head?_cons, Option.bind_some,
      markOfPair?_eq_some_iff.mpr h]
    rfl
  | [], _ =>
    rw [markAt?, nil_append, markOfChar?_eq_some_iff.mpr h]
    cases hpair : after.head?.bind (markOfPair? c) with
    | none => exact ⟨.mark symbol, 0, rfl, fun _ => rfl, fun _ => rfl⟩
    | some longer =>
      refine ⟨.mark longer, 1, rfl, fun hzero => absurd hzero Nat.one_ne_zero, fun hafter => ?_⟩
      obtain ⟨d, hd, hlonger⟩ := Option.bind_eq_some_iff.mp hpair
      rw [markOfPair?_separator (hafter d hd)] at hlonger
      cases hlonger

/-- **Where a token stands the scanner takes at least as much.** -/
theorem reaches_of_denotes (h : Denotes (c :: more) token) (after : List Char) :
    Reaches c more token after := by
  generalize htext : c :: more = text at h
  cases h with
  | keyword word =>
    obtain ⟨c', more', hspelling, hc, hmore⟩ := spelling_isWord word
    have hword : ofWord word.spelling = .keyword word := by rw [ofWord, ofSpelling?_spelling]
    have hreaches := reaches_word hc hmore after
    rw [hspelling] at htext
    cases htext
    rwa [← hspelling, String.ofList_toList, hword] at hreaches
  | number hdigit hmore =>
    cases htext
    exact reaches_run (fun more => .number (String.ofList (c :: more)))
      (first_number hdigit) hmore fun _ hd => (not_part_of_separator hd).1
  | ident hc hmore hnone =>
    cases htext
    have hword : ofWord (String.ofList (c :: more)) = .ident (String.ofList (c :: more)) := by
      rw [ofWord, ofSpelling?_eq_none_iff.mpr hnone]
    exact hword ▸ reaches_word hc hmore after
  | @text body value hbody =>
    obtain ⟨rfl, hmore⟩ := List.cons.inj htext
    obtain rfl : more = body ++ ['"'] := hmore
    refine ⟨.text (String.ofList value), 0, ?_, fun _ => rfl, fun _ => rfl⟩
    rw [append_assoc, singleton_append, first_quote, hbody.literalLength_eq]
    simp [hbody.unescape_eq]
  | mark => exact reaches_mark htext.symm

lemma isSeparator_of_part (h : isNumberPart c = true ∨ isIdentPart c = true) :
    isSeparator c = false := by
  rw [Bool.eq_false_iff]
  intro hc
  simp [not_part_of_separator hc] at h

/-- A token starts with no blank, and none goes on after a slash. -/
lemma Denotes.exists_cons (h : Denotes text token) :
    ∃ c more, text = c :: more ∧ isSeparator c = false ∧ (c = '/' → more = []) := by
  cases h with
  | keyword word =>
    obtain ⟨c, more, hspelling, hc, -⟩ := spelling_isWord word
    refine ⟨c, more, hspelling, isSeparator_of_part (.inr (by simp [isIdentPart, hc])), ?_⟩
    rintro rfl
    cases hc
  | @number c more hdigit hmore =>
    refine ⟨c, more, rfl, isSeparator_of_part (.inl (by simp [isNumberPart, hdigit])), ?_⟩
    rintro rfl
    cases hdigit
  | @ident c more hc hmore hnone =>
    refine ⟨c, more, rfl, isSeparator_of_part (.inr (by simp [isIdentPart, hc])), ?_⟩
    rintro rfl
    cases hc
  | @text body value hbody => exact ⟨'"', body ++ ['"'], rfl, rfl, fun hc => by cases hc⟩
  | mark symbol =>
    cases hspelling : symbol.spelling.toList with
    | nil => cases symbol <;> cases hspelling
    | cons c more =>
      obtain ⟨-, -, -, hc, hslash, -⟩ := mark_start hspelling
      exact ⟨c, more, rfl, hc, hslash⟩

lemma Denotes.unique {token' : Token} (h : Denotes text token) (h' : Denotes text token') :
    token = token' := by
  obtain ⟨c, more, rfl, -⟩ := h.exists_cons
  have hfirst {t : Token} (ht : Denotes (c :: more) t) : first c more = .ok (t, more.length) := by
    obtain ⟨t', extra, hfirst, hsame, hextra⟩ := reaches_of_denotes ht []
    obtain rfl := hextra (by simp)
    rwa [append_nil, Nat.add_zero, hsame rfl] at hfirst
  have hsame := (hfirst h).symm.trans (hfirst h')
  cases hsame
  rfl

/-- What the scanner takes is the longest match: a longer token would have been taken, and a comment
is not left to it. -/
lemma longest_of_first (h : first c rest = .ok (token, n)) (hc : isSeparator c = false)
    (hcomment : startsComment c rest = false) : Longest (c :: rest.take n) (rest.drop n) := by
  rintro more ⟨after, hafter⟩ hne
  have hrest : rest = rest.take n ++ more ++ after := by
    rw [append_assoc, hafter, take_append_drop]
  constructor
  · intro token' hdenotes
    rw [cons_append] at hdenotes
    obtain ⟨token'', extra, hfirst, -⟩ := reaches_of_denotes hdenotes after
    rw [← hrest, h] at hfirst
    have hlength : n = (rest.take n ++ more).length + extra :=
      (Prod.mk.inj (Except.ok.inj hfirst)).2
    have hpos : 0 < more.length := length_pos_iff.mpr hne
    have hn : n ≤ rest.length := (denotes_of_first h).1
    rw [length_append, length_take_of_le hn] at hlength
    omega
  · rintro (⟨-, hblank⟩ | ⟨body, hbody, -⟩)
    · rw [hblank c mem_cons_self] at hc
      cases hc
    · rw [cons_append] at hbody
      obtain ⟨rfl, hmore⟩ := List.cons.inj hbody
      rw [hrest, hmore] at hcomment
      cases hcomment

lemma first_of_longest (h : Denotes (c :: more) token) (hlongest : Longest (c :: more) after) :
    first c (more ++ after) = .ok (token, more.length) := by
  obtain ⟨token', extra, hfirst, hsame, -⟩ := reaches_of_denotes h after
  obtain ⟨hlength, hdenotes⟩ := denotes_of_first hfirst
  rw [take_length_add_append] at hdenotes
  have hextra : after.take extra = [] := by
    by_contra hne
    exact (hlongest (after.take extra) (List.take_prefix _ _) hne).1 token' hdenotes
  have hzero : extra = 0 := by
    rw [length_append] at hlength
    rcases take_eq_nil_iff.mp hextra with hzero | rfl
    · exact hzero
    · rw [length_nil] at hlength
      omega
  rw [hfirst, hsame hzero, hzero, Nat.add_zero]

end Parcel.Token
