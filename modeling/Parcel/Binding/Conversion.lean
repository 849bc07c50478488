import Parcel.Symbol.Ty

/-!
# Conversions between types

How a value of one type may become one of another: freely where nothing can be lost, on request
where something can, or not at all.
-/

namespace Parcel

/-- How a value of one type may become one of another. -/
inductive Conversion where
  /-- The types are the same. -/
  | identity
  /-- Allowed everywhere. -/
  | implicit
  /-- Allowed where it is written out. -/
  | explicit
  /-- There is no way. -/
  | impossible
  deriving DecidableEq, Repr

namespace Conversion

/-- Whether no value of the type takes part in conversions. -/
def isInert (type : Ty) : Bool :=
  type = .unresolved || type = .void

/-- Between two types of one numeric family: widening is implicit. -/
def bySize (source target : Ty) : Conversion :=
  if source.size < target.size then implicit else explicit

/-- The way from one type to another. Numbers widen freely within their family; everything else
that is possible, to and from texts and between the families, is explicit. -/
def classify (source target : Ty) : Conversion :=
  if source = target then identity
  else if isInert source || isInert target then impossible
  else
    match source.group, target.group with
    | .integer, .integer => bySize source target
    | .float, .float => bySize source target
    | .integer, .float => explicit
    | .float, .integer => explicit
    | _, _ => if target = .string || source = .string then explicit else impossible

end Conversion

end Parcel
