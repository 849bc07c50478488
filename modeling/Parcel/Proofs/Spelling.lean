import Parcel.Proofs.Token.Tiling

/-!
# Tokens written out are read back

Tokens are written as messages show them, and string literals with the four escapes that the scanner
knows. With blanks and comments between them the scanner reads the same tokens back.

## Main results

* `Token.denotes_written` — a token written out denotes that token.
* `Token.scan_spelled` — the tokens that a text spells are the tokens that are read from it.
-/

namespace Parcel.Token

open List

/-- How a character stands inside a string literal. -/
def escapedChar : Char → List Char
  | '\\' => ['\\', '\\']
  | '"' => ['\\', '"']
  | '\n' => ['\\', 'n']
  | '\t' => ['\\', 't']
  | c => [c]

/-- The inside of a string literal that stands for the text. -/
def escape (text : List Char) : List Char :=
  text.flatMap escapedChar

/-- The token written out: as messages show it, but for a string literal, where only quotes,
backslashes, line ends and tabs are escaped. -/
def written : Token → List Char
  | text value => '"' :: escape value.toList ++ ['"']
  | token => token.shown.toList

/-- Identifiers and numerals match their patterns, and no identifier is reserved. -/
def Proper : Token → Prop
  | ident name => (∃ c more, name.toList = c :: more ∧ isIdentStart c = true ∧
      ∀ d ∈ more, isIdentPart d = true) ∧ ∀ word : Keyword, word.spelling ≠ name
  | number digits => ∃ c more, digits.toList = c :: more ∧ c.isDigit = true ∧
      ∀ d ∈ more, isNumberPart d = true
  | _ => True

/-- Blanks, line ends, and comments that a line end closes. -/
inductive Trivia : List Char → Prop
  | nil : Trivia []
  | blank {c : Char} {gap : List Char} : isSeparator c = true → Trivia gap → Trivia (c :: gap)
  | comment {comment gap : List Char} : IsComment comment → Trivia gap →
      Trivia (comment ++ '\n' :: gap)

/-- The text is the tokens written out. After each stands a blank or a line end and what else
separates tokens, but after the last nothing need stand. -/
inductive Spelled : List Token → List Char → Prop
  | nil : Spelled [] []
  | last (token : Token) : Spelled [token] token.written
  | cons (token : Token) {c gap text tokens} : isSeparator c = true → Trivia gap →
    Spelled tokens text → Spelled (token :: tokens) (token.written ++ (c :: gap ++ text))

/-! ### Writing one token -/

lemma literalBody_escape (value : List Char) : LiteralBody (escape value) value := by
  induction value with
  | nil => exact .nil
  | cons c value ih =>
    rw [escape, flatMap_cons, ← escape]
    unfold escapedChar
    split
    · exact .escape rfl ih
    · exact .escape rfl ih
    · exact .escape rfl ih
    · exact .escape rfl ih
    next hbackslash hquote _ _ => exact .plain hquote hbackslash ih

/-- **A token written out denotes that token.** -/
theorem denotes_written {token : Token} (h : token.Proper) : Denotes token.written token := by
  cases token with
  | keyword word => exact .keyword word
  | number =>
    obtain ⟨c, more, hdigits, hc, hmore⟩ := h
    have hdenotes := Denotes.number hc hmore
    rwa [← hdigits, String.ofList_toList] at hdenotes
  | text value =>
    have hdenotes := Denotes.text (literalBody_escape value.toList)
    rwa [String.ofList_toList] at hdenotes
  | ident name =>
    obtain ⟨⟨c, more, hname, hc, hmore⟩, hfree⟩ := h
    rw [← name.ofList_toList, hname] at hfree
    have hdenotes := Denotes.ident hc hmore hfree
    rwa [← hname, String.ofList_toList] at hdenotes
  | mark symbol => exact .mark symbol

/-- Before a blank, and at the end of the text, no token goes on. -/
lemma Denotes.longest {slice after : List Char} {token : Token} (h : Denotes slice token)
    (hafter : ∀ d ∈ after.head?, isSeparator d = true) : Longest slice after := by
  obtain ⟨c, more, rfl, hc, hslash⟩ := h.exists_cons
  obtain ⟨token', extra, hfirst, -, hextra⟩ := reaches_of_denotes h after
  have hcomment : startsComment c (more ++ after) = false := by
    rw [Bool.eq_false_iff, Ne, startsComment_iff]
    rintro ⟨rfl, rest, hrest⟩
    rw [hslash rfl, nil_append] at hrest
    have hblank := hafter '/' (by rw [hrest]; rfl)
    cases hblank
  rw [hextra hafter, Nat.add_zero] at hfirst
  have hlongest := longest_of_first hfirst hc hcomment
  rwa [take_left, drop_left] at hlongest

/-! ### Writing a list of tokens -/

variable {text lead : List Char}

lemma Trivia.gap (h : Trivia text) (follow : List Char) : Gap text follow := by
  induction h with
  | nil => exact .nil follow
  | blank hc _ ih => exact .blank hc ih
  | comment hcomment _ ih => exact .comment hcomment (by simp) (.blank rfl ih)

/-- Wherever the text stands, it is tiled by lexemes of these tokens. -/
def TiledBy (tokens : List Token) (text : List Char) : Prop :=
  ∀ start, ∃ lexemes : List Lexeme, Tiles [] start text lexemes ∧ lexemes.map (·.token) = tokens

/-- A token written out before a tiling makes another, if it cannot go on there. -/
lemma TiledBy.cons {token : Token} {tokens : List Token} {rest : List Char} (hproper : token.Proper)
    (hlead : Trivia lead) (hrest : ∀ d ∈ rest.head?, isSeparator d = true) (h : TiledBy tokens rest)
    : TiledBy (token :: tokens) (lead ++ token.written ++ rest) := by
  intro start
  have hdenotes := denotes_written hproper
  have hlongest : Longest token.written (rest ++ []) :=
    hdenotes.longest (by rwa [append_nil])
  let span : Span := ⟨start + byteLength lead, start + byteLength lead + byteLength token.written⟩
  obtain ⟨lexemes, htiles, hsame⟩ := h span.stop
  refine ⟨⟨token, span⟩ :: lexemes, ?_, by rw [map_cons, hsame]⟩
  exact .token (hlead.gap _) hdenotes hlongest rfl rfl htiles

lemma tiledBy_of_spelled {tokens : List Token} (h : Spelled tokens text)
    (hproper : ∀ token ∈ tokens, token.Proper) (hlead : Trivia lead) :
    TiledBy tokens (lead ++ text) := by
  induction h generalizing lead with
  | nil =>
    rw [append_nil]
    exact fun start => ⟨[], .done (hlead.gap _), rfl⟩
  | last token =>
    have hend : TiledBy [] [] := fun start => ⟨[], .done (.nil _), rfl⟩
    have htiled := hend.cons (hproper token mem_cons_self) hlead (by simp)
    rwa [append_nil] at htiled
  | @cons token c gap text tokens hc hgap _ ih =>
    -- The separator is what the rest of the text starts with.
    have hrest := ih (fun token ht => hproper token (mem_cons_of_mem _ ht)) (.blank hc hgap)
    have htiled := hrest.cons (hproper token mem_cons_self) hlead (by simp [hc])
    rwa [append_assoc] at htiled

/-- **Tokens written out are read back.** With separators between them, and blanks and comments
before them, the scanner gives the same tokens; every text is the value of a literal that it reads,
and taking the escapes of the literal away gives the text. -/
theorem scan_spelled :
    (∀ (tokens : List Token) (lead text : List Char), (∀ token ∈ tokens, token.Proper) →
      Trivia lead → Spelled tokens text →
      ∃ lexemes : List Lexeme, scan (String.ofList (lead ++ text)) = .ok lexemes ∧
        lexemes.map (·.token) = tokens) ∧
    ∀ value : String, unescape (escape value.toList) = value.toList ∧
      ∃ span, scan (String.ofList (Token.text value).written) = .ok [⟨.text value, span⟩] := by
  have hread {tokens : List Token} {lead text : List Char}
      (hproper : ∀ token ∈ tokens, token.Proper) (hlead : Trivia lead) (h : Spelled tokens text) :
      ∃ lexemes : List Lexeme, scan (String.ofList (lead ++ text)) = .ok lexemes ∧
        lexemes.map (·.token) = tokens := by
    obtain ⟨lexemes, htiles, hsame⟩ := tiledBy_of_spelled h hproper hlead 0
    exact ⟨lexemes, by rw [scan_ofList, scanFrom_of_tiles htiles], hsame⟩
  refine ⟨fun tokens lead text => hread, fun value => ⟨(literalBody_escape _).unescape_eq, ?_⟩⟩
  obtain ⟨lexemes, hscan, hsame⟩ := hread (by simp [Proper]) .nil (.last (.text value))
  obtain ⟨⟨token, span⟩, rfl, rfl⟩ := map_eq_singleton_iff.mp hsame
  exact ⟨span, hscan⟩

/-- Marks that would join without a blank, a word that starts like a keyword, and a text that holds
all that a literal escapes but a tab. -/
theorem scan_spelled_apart :
    let tokens : List Token :=
      [.mark .less, .mark .minus, .ident "ifx", .text "\\n\"\n", .mark .slash]
    let lead := "// é\n".toList
    let text := "< -\t// x\nifx \"\\\\n\\\"\\n\"\n/".toList
    (∀ token ∈ tokens, token.Proper) ∧ Trivia lead ∧ Spelled tokens text ∧
    ∃ lexemes : List Lexeme, scan (String.ofList (lead ++ text)) = .ok lexemes ∧
      lexemes.map (·.token) = tokens := by
  intro tokens lead text
  have hproper : ∀ token ∈ tokens, token.Proper := by
    simp only [tokens, forall_mem_cons, Proper, true_and]
    refine ⟨⟨⟨'i', "fx".toList, rfl, rfl, all_eq_true.mp rfl⟩, fun word => ?_⟩, by simp⟩
    cases word <;> decide
  have hcomment (c : Char) (hc : c ≠ '\n') : IsComment ['/', '/', ' ', c] :=
    ⟨[' ', c], rfl, by simp [hc]⟩
  have hlead : Trivia lead := .comment (hcomment 'é' (by decide)) .nil
  have hword : Spelled [.ident "ifx", .text "\\n\"\n", .mark .slash]
      "ifx \"\\\\n\\\"\\n\"\n/".toList :=
    .cons (.ident "ifx") (c := ' ') rfl .nil
      (.cons (.text "\\n\"\n") (c := '\n') rfl .nil (.last (.mark .slash)))
  have hspelled : Spelled tokens text :=
    .cons (.mark .less) (c := ' ') rfl .nil
      (.cons (.mark .minus) (c := '\t') rfl (.comment (hcomment 'x' (by decide)) .nil) hword)
  exact ⟨hproper, hlead, hspelled, scan_spelled.1 _ _ _ hproper hlead hspelled⟩

end Parcel.Token
