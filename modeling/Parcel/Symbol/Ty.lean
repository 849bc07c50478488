import Parcel.Number.Word

/-!
# Types

The types of the language: integers of four widths, two floating-point types, truth values, texts,
the type of no value, arrays and containers, and a type for what could not be resolved.
-/

namespace Parcel

/-- A type. -/
inductive Ty where
  | integer (width : Width)
  | float
  | double
  | bool
  | string
  | void
  /-- The type of what could not be resolved. -/
  | unresolved
  | array (element : Ty)
  /-- A structure with fields and methods that the language itself cannot define. -/
  | container (name : String)
  deriving DecidableEq, Repr

/-- The families of types. -/
inductive TyGroup where
  | integer
  | float
  /-- Truth values, texts, no value, and what could not be resolved. -/
  | opaqueType
  | array
  | container
  deriving DecidableEq, Repr

namespace Ty

abbrev byte : Ty := .integer .byte
abbrev short : Ty := .integer .short
abbrev int : Ty := .integer .int
abbrev long : Ty := .integer .long

/-- The types that a source file can name without anything being registered. -/
def builtins : List Ty :=
  [byte, short, int, long, float, double, bool, string, void]

/-- The name of a type, without its arguments. -/
def name : Ty → String
  | integer .byte => "byte"
  | integer .short => "short"
  | integer .int => "int"
  | integer .long => "long"
  | float => "float"
  | double => "double"
  | bool => "bool"
  | string => "string"
  | void => "void"
  | unresolved => "?"
  | array _ => "array"
  | container name => name

def shown : Ty → String
  | array element => "array[" ++ element.shown ++ "]"
  | type => type.name

/-- The element type that a written type of arrays names. -/
def elementName? (text : String) : Option String :=
  if text.startsWith "array[" && text.endsWith "]" then
    some (String.ofList ((text.toList.drop 6).dropLast))
  else none

/-- The type of a written name, of which at most `depth` levels of arrays are read. -/
def ofShownTo : Nat → String → Ty
  | 0, text => container text
  | depth + 1, text =>
    match (unresolved :: builtins).find? (·.name = text), elementName? text with
    | some type, _ => type
    | none, some element => array (ofShownTo depth element)
    | none, none => container text

/-- The type as it is written: any name that is not known is that of a container. -/
def ofShown (text : String) : Ty :=
  ofShownTo (text.length + 1) text

def group : Ty → TyGroup
  | integer _ => .integer
  | float | double => .float
  | bool | string | void | unresolved => .opaqueType
  | array _ => .array
  | container _ => .container

/-- The size by which numbers of one family are ordered. -/
def size : Ty → Nat
  | integer .byte => 1
  | integer .short => 2
  | integer .int => 4
  | integer .long => 8
  | float => 4
  | double => 8
  | bool => 1
  | string | void | unresolved | array _ | container _ => 0

def element? : Ty → Option Ty
  | array element => some element
  | _ => none

def arguments : Ty → List Ty
  | array element => [element]
  | _ => []

/-- Whether values of the type are numbers. -/
def isNumeric (type : Ty) : Bool :=
  type.group = .integer || type.group = .float

end Ty

end Parcel
