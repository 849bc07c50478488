import Mathlib.Data.List.Basic
import Parcel.Machine.Convert
import Parcel.Proofs.Number.Word

/-!
# Integers as texts

An integer that is turned into a text can be read back from it, also with white space around it, as
a value of every integer type that has the number. Reading depends on the type in its range only, so
what is read for one type is read for every wider one.

## Main results

* `Text.trim_padded` — white space around a text goes away.
* `Numeral.whole?_toString` — a number is read from its own text.
* `Numeral.integer?_eq_some_iff` — what is read for a width.
* `integer_texts_read_back` — conversions to texts and back.
-/

namespace Parcel

open List

/-! ### White space -/

namespace Text

/-- The visible ASCII characters are not white space. -/
lemma isBlank_of_visible {c : Char} (hlow : 33 ≤ c.toNat) (hhigh : c.toNat < 127) :
    isBlank c = false := by
  show CodeSet.insideFrom c.toNat false (9 :: 5 :: 18 :: 1 :: 100 :: _) = false
  rw [CodeSet.insideFrom, if_neg (by omega), CodeSet.insideFrom, if_neg (by omega),
    CodeSet.insideFrom, if_neg (by omega), CodeSet.insideFrom, if_neg (by omega),
    CodeSet.insideFrom, if_pos (by omega)]
  rfl

/-- White space before a text goes away, up to the first character of the text. -/
lemma dropWhile_padded {before text : List Char} (hbefore : ∀ c ∈ before, isBlank c = true)
    (hne : text ≠ []) (htext : ∀ c ∈ text, isBlank c = false) (rest : List Char) :
    (before ++ (text ++ rest)).dropWhile isBlank = text ++ rest := by
  obtain ⟨c, more, rfl⟩ := exists_cons_of_ne_nil hne
  have hc : ¬ isBlank c = true := by simp [htext c mem_cons_self]
  rw [dropWhile_append_of_pos hbefore, cons_append, dropWhile_cons_of_neg hc]

/-- **White space around a text goes away**, if the text has none itself. -/
theorem trim_padded {before text after : List Char} (hbefore : ∀ c ∈ before, isBlank c = true)
    (hne : text ≠ []) (htext : ∀ c ∈ text, isBlank c = false)
    (hafter : ∀ c ∈ after, isBlank c = true) : trim (before ++ text ++ after) = text := by
  have hback : (after.reverse ++ (text.reverse ++ [])).dropWhile isBlank = text.reverse ++ [] :=
    dropWhile_padded (fun c hc => hafter c (mem_reverse.mp hc))
      (mt reverse_eq_nil_iff.mp hne) (fun c hc => htext c (mem_reverse.mp hc)) []
  rw [append_nil] at hback
  rw [trim, append_assoc, dropWhile_padded hbefore hne htext, reverse_append, hback,
    reverse_reverse]

end Text

/-! ### Numbers from their texts -/

namespace Numeral

variable {c : Char} {text digits : List Char}

/-- The digits of a number stand for it. -/
lemma digitsValue_toDigits (n : Nat) : digitsValue (Nat.toDigits 10 n) = n :=
  Nat.ofDigitChars_toDigits (by decide) (by decide)

lemma isDigit_of_mem_toDigits {n : Nat} (h : c ∈ Nat.toDigits 10 n) : c.isDigit = true :=
  Nat.isDigit_of_mem_toDigits (by decide) (by decide) h

lemma isDigits_toDigits (n : Nat) : isDigits (Nat.toDigits 10 n) = true := by
  rw [isDigits, Bool.and_eq_true, Bool.not_eq_true', isEmpty_eq_false_iff, all_eq_true]
  exact ⟨Nat.toDigits_ne_nil, fun c hc => isDigit_of_mem_toDigits hc⟩

lemma sign_of_isDigits (h : isDigits digits = true) : sign digits = (false, digits) := by
  unfold sign
  split
  · exact absurd h (by simp [isDigits])
  · exact absurd h (by simp [isDigits])
  · rfl

/-- The text of a number: its digits, after a minus if it is negative. -/
lemma toList_toString (n : Int) : (toString n).toList =
    if 0 ≤ n then Nat.toDigits 10 n.toNat else '-' :: Nat.toDigits 10 (-n).toNat := by
  rw [Int.toString_eq_repr, Int.repr_eq_if]
  split
  · exact Nat.toList_repr
  · rw [String.toList_append, Nat.toList_repr]
    rfl

lemma whole?_of_sign {negative : Bool} (hsign : sign text = (negative, digits))
    (hdigits : isDigits digits = true) :
    whole? text = some (if negative then -(digitsValue digits : Int) else digitsValue digits) := by
  simp only [whole?, hsign, hdigits, if_true]

/-- **A number is read from its own text.** -/
theorem whole?_toString (n : Int) : whole? (toString n).toList = some n := by
  rw [toList_toString]
  by_cases h : 0 ≤ n
  · rw [if_pos h, whole?_of_sign (sign_of_isDigits (isDigits_toDigits _)) (isDigits_toDigits _),
      digitsValue_toDigits, if_neg Bool.false_ne_true, Int.toNat_of_nonneg h]
  · have hneg : 0 ≤ -n := by omega
    have hsign : sign ('-' :: Nat.toDigits 10 (-n).toNat) = (true, Nat.toDigits 10 (-n).toNat) := rfl
    rw [if_neg h, whole?_of_sign hsign (isDigits_toDigits _), digitsValue_toDigits, if_pos rfl,
      Int.toNat_of_nonneg hneg, Int.neg_neg]

lemma isBlank_of_mem_toString {n : Int} (h : c ∈ (toString n).toList) :
    Text.isBlank c = false := by
  have hdigit : ∀ {m : Nat}, c ∈ Nat.toDigits 10 m → Text.isBlank c = false := by
    intro m hm
    obtain ⟨hlow, hhigh⟩ := Char.isDigit_iff_toNat.mp (isDigit_of_mem_toDigits hm)
    have hzero : '0'.toNat = 48 := rfl
    have hnine : '9'.toNat = 57 := rfl
    exact Text.isBlank_of_visible (by omega) (by omega)
  rw [toList_toString] at h
  split at h
  · exact hdigit h
  · rcases mem_cons.mp h with rfl | h
    · exact Text.isBlank_of_visible (by decide) (by decide)
    · exact hdigit h

lemma toList_toString_ne_nil (n : Int) : (toString n).toList ≠ [] := by
  rw [toList_toString]
  split
  · exact Nat.toDigits_ne_nil
  · exact cons_ne_nil _ _

/-- **What is read for a width**: the number that the text stands for, if the width has it. -/
theorem integer?_eq_some_iff {w : Width} {m : Word} :
    integer? w text = some m ↔ m.width = w ∧ m.val ∈ w.range ∧ whole? text = some m.val := by
  unfold integer?
  cases hwhole : whole? text with
  | none => simp
  | some =>
    dsimp only
    split
    next hn =>
      rw [Width.holds_iff] at hn
      rw [Option.some.injEq, Option.some.injEq]
      constructor
      · rintro rfl
        rw [Word.val_wrap_of_mem_range hn]
        exact ⟨rfl, hn, rfl⟩
      · rintro ⟨rfl, -, rfl⟩
        exact m.wrap_val
    next hn =>
      rw [Width.holds_iff] at hn
      constructor
      · intro h
        cases h
      · rintro ⟨-, hm, heq⟩
        exact absurd (Option.some.inj heq ▸ hm) hn

end Numeral

/-! ### Conversions of texts -/

namespace Heap

variable {heap : Heap} {w : Width} {text : String}

lemma shown_integer (heap : Heap) (n : Word) : heap.shown (.integer n) = toString n.val := by
  rw [shown, snapshot, snapshotTo, Snapshot.shown]

lemma shown_string (heap : Heap) (text : String) : heap.shown (.string text) = text := by
  rw [shown, snapshot, snapshotTo, Snapshot.shown]

lemma convert_string_integer (heap : Heap) (n : Word) :
    heap.convert .string (.integer n) = .ok (.string (toString n.val)) := by
  rw [convert, if_pos rfl, shown_integer]

/-- A text is converted to an integer type by reading it without the white space around it. -/
lemma convert_integer_string (heap : Heap) (w : Width) (text : String) :
    heap.convert (.integer w) (.string text) =
      match Numeral.integer? w (Text.trim text.toList) with
      | some m => .ok (.integer m)
      | none => .error (.conversionFailed text (Ty.integer w).name) := by
  have hread : (Value.string text).convertScalar? (.integer w) =
    (Numeral.integer? w (Text.trim text.toList)).map .integer := rfl
  rw [convert, if_neg Ty.noConfusion, hread, shown_string]
  cases Numeral.integer? w (Text.trim text.toList) with
  | none | some => rfl

lemma convert_integer_string_cases (heap : Heap) (w : Width) (text : String) :
    (∃ v, heap.convert (.integer w) (.string text) = .ok v) ∨
      heap.convert (.integer w) (.string text) =
        .error (.conversionFailed text (Ty.integer w).name) := by
  rw [convert_integer_string]
  split
  · exact .inl ⟨_, rfl⟩
  · exact .inr rfl

lemma convert_integer_string_eq_ok_iff {v : Value} :
    heap.convert (.integer w) (.string text) = .ok v ↔ ∃ m : Word, v = .integer m ∧ m.width = w ∧
      m.val ∈ w.range ∧ Numeral.whole? (Text.trim text.toList) = some m.val := by
  simp only [convert_integer_string, ← Numeral.integer?_eq_some_iff]
  cases Numeral.integer? w (Text.trim text.toList) with
  | none => simp
  | some => simp [eq_comm]

/-- An integer is read from its own text, with white space around it, if the width has its
number. -/
lemma convert_padded {n : Word} {before after : String}
    (hbefore : ∀ c ∈ before.toList, Text.isBlank c = true)
    (hafter : ∀ c ∈ after.toList, Text.isBlank c = true) {v : Value} :
    heap.convert (.integer w) (.string (before ++ toString n.val ++ after)) = .ok v ↔
      ∃ m : Word, v = .integer m ∧ m.width = w ∧ m.val ∈ w.range ∧ m.val = n.val := by
  rw [convert_integer_string_eq_ok_iff, String.toList_append, String.toList_append,
    Text.trim_padded hbefore (Numeral.toList_toString_ne_nil _)
      (fun _ => Numeral.isBlank_of_mem_toString) hafter, Numeral.whole?_toString]
  simp only [Option.some.injEq, eq_comm (a := n.val)]

end Heap

/-- **Integer texts are read back.** For all integer types: the text that an integer is converted
to, with any white space before and after it, is converted to a type if and only if the type has the
number, and then to that number; otherwise the conversion fails as conversions do. And a text that
is converted to one type is converted to the same number of every type that is at least as wide. -/
theorem integer_texts_read_back (heap : Heap) :
    (∀ (n : Word) (w : Width) (before after : String), (∀ c ∈ before.toList, Text.isBlank c = true) →
      (∀ c ∈ after.toList, Text.isBlank c = true) →
      ∃ text, heap.convert .string (.integer n) = .ok (.string text) ∧
        let padded := before ++ text ++ after
        ((∃ v, heap.convert (.integer w) (.string padded) = .ok v) ↔ n.val ∈ w.range) ∧
        (n.val ∈ w.range → ∃ m : Word, m.width = w ∧ m.val = n.val ∧
          heap.convert (.integer w) (.string padded) = .ok (.integer m)) ∧
        (n.val ∉ w.range → heap.convert (.integer w) (.string padded) =
          .error (.conversionFailed padded (Ty.integer w).name))) ∧
    ∀ (text : String) (w w' : Width) (v : Value), w.bits ≤ w'.bits →
      heap.convert (.integer w) (.string text) = .ok v →
      ∃ m m' : Word, v = .integer m ∧ m.width = w ∧ m'.width = w' ∧ m'.val = m.val ∧
        heap.convert (.integer w') (.string text) = .ok (.integer m') := by
  constructor
  · intro n w before after hbefore hafter
    refine ⟨toString n.val, heap.convert_string_integer n, ?_⟩
    intro padded
    have hread {v : Value} : heap.convert (.integer w) (.string padded) = .ok v ↔ ∃ m : Word,
        v = .integer m ∧ m.width = w ∧ m.val ∈ w.range ∧ m.val = n.val :=
      Heap.convert_padded hbefore hafter
    have hgiven : n.val ∈ w.range → heap.convert (.integer w) (.string padded) =
        .ok (.integer (Word.wrap w n.val)) := by
      intro hn
      have hval := Word.val_wrap_of_mem_range hn
      exact hread.mpr ⟨_, rfl, rfl, hval.symm ▸ hn, hval⟩
    have hrange : (∃ v, heap.convert (.integer w) (.string padded) = .ok v) → n.val ∈ w.range := by
      rintro ⟨v, hv⟩
      obtain ⟨m, -, -, hm, hval⟩ := hread.mp hv
      exact hval ▸ hm
    refine ⟨⟨hrange, fun hn => ⟨_, hgiven hn⟩⟩, fun hn => ?_, fun hn => ?_⟩
    · exact ⟨_, rfl, Word.val_wrap_of_mem_range hn, hgiven hn⟩
    · exact (heap.convert_integer_string_cases w padded).resolve_left (mt hrange hn)
  · intro text w w' v hbits hv
    obtain ⟨m, rfl, rfl, hrange, hwhole⟩ := Heap.convert_integer_string_eq_ok_iff.mp hv
    have hrange' := Width.range_mono hbits hrange
    have hval := Word.val_wrap_of_mem_range hrange'
    refine ⟨m, Word.wrap w' m.val, rfl, rfl, rfl, hval, ?_⟩
    exact Heap.convert_integer_string_eq_ok_iff.mpr ⟨_, rfl, rfl, hval.symm ▸ hrange',
      hval.symm ▸ hwhole⟩

/-- The least `byte`, as an `int`, is read back as a `byte` and as a `long` from between a line end
and a tab; the number after the greatest `byte` is not. -/
theorem integer_texts_read_back_byte :
    ∃ least beyond,
      Heap.empty.convert .string (.integer (Word.wrap .int (-128))) = .ok (.string least) ∧
      Heap.empty.convert .string (.integer (Word.wrap .int 128)) = .ok (.string beyond) ∧
      (∃ m : Word, m.width = .byte ∧ m.val = -128 ∧
        Heap.empty.convert .byte (.string ("\n" ++ least ++ "\t")) = .ok (.integer m)) ∧
      (∃ m : Word, m.width = .long ∧ m.val = -128 ∧
        Heap.empty.convert .long (.string ("\n" ++ least ++ "\t")) = .ok (.integer m)) ∧
      Heap.empty.convert .byte (.string ("\n" ++ beyond ++ "\t")) =
        .error (.conversionFailed ("\n" ++ beyond ++ "\t") "byte") := by
  obtain ⟨hread, hwider⟩ := integer_texts_read_back .empty
  have hbefore : ∀ c ∈ "\n".toList, Text.isBlank c = true :=
    forall_mem_singleton.mpr rfl
  have hafter : ∀ c ∈ "\t".toList, Text.isBlank c = true :=
    forall_mem_singleton.mpr rfl
  obtain ⟨least, hleast, -, hin, -⟩ := hread (Word.wrap .int (-128)) .byte _ _ hbefore hafter
  obtain ⟨beyond, hbeyond, -, -, hout⟩ := hread (Word.wrap .int 128) .byte _ _ hbefore hafter
  obtain ⟨m, hwidth, hval, hm⟩ := hin (Width.holds_iff.mp rfl)
  obtain ⟨n, n', hn, -, hwidth', hval', hlong⟩ := hwider _ .byte .long _ (by decide) hm
  cases hn
  refine ⟨least, beyond, hleast, hbeyond, ⟨m, hwidth, hval, hm⟩, ⟨n', hwidth', ?_, hlong⟩, ?_⟩
  · exact hval'.trans hval
  · exact hout fun h => absurd (Width.holds_iff.mpr h) (by decide)

end Parcel
