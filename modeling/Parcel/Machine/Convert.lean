import Parcel.Machine.Heap
import Parcel.Number.Numeral
import Parcel.Text.Blank

/-!
# Conversion of values

Integers wrap to the width of the target, floating-point numbers lose their fraction, texts are read
as numerals with blanks around them, and everything can become a text.
-/

namespace Parcel

namespace Value

/-- The number as a value of a type: wrapped to its width, or rounded. -/
def ofInteger? (type : Ty) (n : Int) : Option Value :=
  match type with
  | .integer width => some (integer (Word.wrap width n))
  | .float => some (float (Int64.ofInt n).toFloat32)
  | .double => some (double (Int64.ofInt n).toFloat)
  | _ => none

/-- The floating-point number as a value of a type. As an integer it loses its fraction and is first
brought into the range of `long`. -/
def ofFloat? (type : Ty) (x : Float) : Option Value :=
  match type with
  | .float => some (float x.toFloat32)
  | .double => some (double x)
  | type => ofInteger? type x.toInt64.toInt

/-- The truth value that a text stands for. -/
def readBool? (text : List Char) : Option Bool :=
  if text = "true".toList then some true
  else if text = "false".toList then some false
  else none

/-- The value of a type that a text stands for, without the blanks around it. -/
def read? (type : Ty) (text : String) : Option Value :=
  let text := Text.trim text.toList
  match type with
  | .integer width => (Numeral.integer? width text).map integer
  | .float => (Numeral.float32? text).map float
  | .double => (Numeral.float? text).map double
  | .bool => (readBool? text).map bool
  | _ => none

def convertScalar? (type : Ty) (v : Value) : Option Value :=
  match v with
  | integer value => ofInteger? type value.val
  | float value => ofFloat? type value.toFloat
  | double value => ofFloat? type value
  | string text => read? type text
  | _ => none

end Value

def Heap.convert (heap : Heap) (type : Ty) (v : Value) : Except FaultCause Value :=
  if type = .string then .ok (.string (heap.shown v))
  else
    match v.convertScalar? type with
    | some converted => .ok converted
    | none => .error (.conversionFailed (heap.shown v) type.name)

end Parcel
