import JsonSelect.Number.Text
import JsonSelect.Text.Quoted

/-! # Values

The value of a node is what the document says there, without spans. Scalars are shared by values and
by the nodes of a document. A value is written in two ways: `Value.compact` on one line without
blanks, and `Value.pretty` with two blanks for each level. -/

namespace JsonSelect

/-- A value without parts. -/
inductive Scalar where
  | null
  | boolean (b : Bool)
  | number (n : Number)
  | string (s : String)
deriving DecidableEq, Repr

/-- The sorts of value. -/
inductive Kind where
  | object
  | array
  | string
  | number
  | boolean
  | null
deriving DecidableEq, Repr

/-- The name of a kind. -/
def Kind.name : Kind → String
  | .object => "object"
  | .array => "array"
  | .string => "string"
  | .number => "number"
  | .boolean => "boolean"
  | .null => "null"

/-- The kind of a scalar. -/
def Scalar.kind : Scalar → Kind
  | .null => .null
  | .boolean _ => .boolean
  | .number _ => .number
  | .string _ => .string

/-- A scalar as text. -/
def Scalar.text : Scalar → String
  | .null => "null"
  | .boolean true => "true"
  | .boolean false => "false"
  | .number n => String.ofList n.chars
  | .string s => Text.quote s

/-- A value: a scalar, a list of values, or named values in order. -/
inductive Value where
  | scalar (s : Scalar)
  | array (items : List Value)
  | object (members : List (String × Value))
deriving Repr

namespace Value

/-- A string as a value. -/
def string (s : String) : Value := .scalar (.string s)

/-- The kind of a value. -/
def kind : Value → Kind
  | .scalar s => s.kind
  | .array _ => .array
  | .object _ => .object

/-! ### On one line -/

mutual

/-- A value on one line without blanks. -/
def compact : Value → String
  | .scalar s => s.text
  | .array items => "[" ++ ",".intercalate (compactItems items) ++ "]"
  | .object members => "\x7b" ++ ",".intercalate (compactMembers members) ++ "\x7d"

/-- The texts of the items of an array. -/
def compactItems : List Value → List String
  | [] => []
  | v :: vs => v.compact :: compactItems vs

/-- The texts of the members of an object. -/
def compactMembers : List (String × Value) → List String
  | [] => []
  | (name, v) :: ms => (Text.quote name ++ ":" ++ v.compact) :: compactMembers ms

end

/-! ### On many lines -/

/-- The start of a line `depth` levels deep. -/
def indent (depth : Nat) : String := "".pushn ' ' (2 * depth)

/-- Brackets around entries, one entry a line; no line break where there is no entry. -/
def block (left right : String) (depth : Nat) (entries : List String) : String :=
  if entries.isEmpty then left ++ right
  else
    left ++ "\n" ++ ",\n".intercalate (entries.map (indent (depth + 1) ++ ·)) ++ "\n" ++
      indent depth ++ right

mutual

/-- A value on many lines, of which the first continues a line `depth` levels deep. -/
def prettyAt (depth : Nat) : Value → String
  | .scalar s => s.text
  | .array items => block "[" "]" depth (prettyItems (depth + 1) items)
  | .object members => block "\x7b" "\x7d" depth (prettyMembers (depth + 1) members)

/-- The texts of the items of an array. -/
def prettyItems (depth : Nat) : List Value → List String
  | [] => []
  | v :: vs => v.prettyAt depth :: prettyItems depth vs

/-- The texts of the members of an object. -/
def prettyMembers (depth : Nat) : List (String × Value) → List String
  | [] => []
  | (name, v) :: ms =>
    (Text.quote name ++ ": " ++ v.prettyAt depth) :: prettyMembers depth ms

end

/-- A value on many lines. -/
def pretty (v : Value) : String := v.prettyAt 0

end Value

end JsonSelect
