/-!
# Source positions

A span is a range of byte offsets into one source text.
-/

namespace Parcel

/-- A range of byte offsets of a source text; `stop` is the offset after the last byte. -/
structure Span where
  start : Nat
  stop : Nat
  deriving DecidableEq, Repr, Inhabited

namespace Span

/-- The smallest span that covers both. -/
def merge (a b : Span) : Span :=
  ⟨min a.start b.start, max a.stop b.stop⟩

def shown (s : Span) : String :=
  s!"{s.start}..{s.stop}"

end Span

/-- An identifier together with where it stands. -/
structure Name where
  text : String
  span : Span
  deriving DecidableEq, Repr, Inhabited

end Parcel
