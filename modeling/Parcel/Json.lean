import Parcel.Text.Quoted

/-!
# JSON documents

Syntax trees are shown as JSON documents. The members of an object keep the order in which they
are given.
-/

namespace Parcel

/-- A JSON document with whole numbers only. -/
inductive Json where
  | null
  | bool (value : Bool)
  | number (value : Int)
  | string (value : String)
  | array (items : List Json)
  | object (members : List (String × Json))
  deriving Inhabited

namespace Json

/-- How one character stands inside a string: quotes, backslashes and controls are escaped. -/
def escapedChar (c : Char) : List Char :=
  if c = '"' then ['\\', '"']
  else if c = '\\' then ['\\', '\\']
  else if c = '\n' then ['\\', 'n']
  else if c = '\r' then ['\\', 'r']
  else if c = '\t' then ['\\', 't']
  else if c.toNat = 8 then ['\\', 'b']
  else if c.toNat = 12 then ['\\', 'f']
  else if c.toNat < 32 then
    let digits := Text.hexDigits c.toNat
    ['\\', 'u'] ++ List.replicate (4 - digits.length) '0' ++ digits
  else [c]

def literal (text : String) : String :=
  String.ofList ('"' :: text.toList.flatMap escapedChar ++ ['"'])

/-- A scalar document, or nothing for the compound ones. -/
def scalar : Json → String
  | null => "null"
  | bool value => if value then "true" else "false"
  | number value => toString value
  | string value => literal value
  | array _ | object _ => ""

mutual

/-- The document on one line, appended to `out`. -/
def compactTo (out : String) : Json → String
  | array items => itemsTo (out ++ "[") true items ++ "]"
  | object members => membersTo (out ++ "\x7b") true members ++ "\x7d"
  | null => out ++ scalar null
  | bool value => out ++ scalar (bool value)
  | number value => out ++ scalar (number value)
  | string value => out ++ scalar (string value)

/-- The items of an array, each after a comma but the first. -/
def itemsTo (out : String) (first : Bool) : List Json → String
  | [] => out
  | item :: items => itemsTo (compactTo (if first then out else out ++ ",") item) false items

/-- The members of an object, each after a comma but the first. -/
def membersTo (out : String) (first : Bool) : List (String × Json) → String
  | [] => out
  | (key, value) :: members =>
    let out := if first then out else out ++ ","
    membersTo (compactTo (out ++ literal key ++ ":") value) false members

end

/-- The document on one line, without blanks. -/
def compact (document : Json) : String :=
  compactTo "" document

def newLine (depth : Nat) : String :=
  "\n" ++ String.ofList (List.replicate (2 * depth) ' ')

mutual

/-- The document over several lines, appended to `out`; `depth` is that of its own lines. -/
def prettyTo (depth : Nat) (out : String) : Json → String
  | array [] => out ++ "[]"
  | array (item :: items) =>
    prettyItemsTo (depth + 1) (out ++ "[") true (item :: items) ++ newLine depth ++ "]"
  | object [] => out ++ "\x7b\x7d"
  | object (entry :: members) =>
    prettyMembersTo (depth + 1) (out ++ "\x7b") true (entry :: members) ++ newLine depth ++ "\x7d"
  | null => out ++ scalar null
  | bool value => out ++ scalar (bool value)
  | number value => out ++ scalar (number value)
  | string value => out ++ scalar (string value)

def prettyItemsTo (depth : Nat) (out : String) (first : Bool) : List Json → String
  | [] => out
  | item :: items =>
    let out := (if first then out else out ++ ",") ++ newLine depth
    prettyItemsTo depth (prettyTo depth out item) false items

def prettyMembersTo (depth : Nat) (out : String) (first : Bool) : List (String × Json) → String
  | [] => out
  | (key, value) :: members =>
    let out := (if first then out else out ++ ",") ++ newLine depth ++ literal key ++ ": "
    prettyMembersTo depth (prettyTo depth out value) false members

end

def pretty (document : Json) : String :=
  prettyTo 0 "" document

end Json

end Parcel
