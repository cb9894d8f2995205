import JsonSelect.Span

/-! # TOML items

A TOML document is a table of items under keys. Items keep the span of source text that they come from
and tables how they came about, which decides whether they may still grow. -/

namespace JsonSelect.Toml

/-- A value without parts. -/
inductive Scalar where
  | text (s : String)
  | integer (n : Int)
  | float (x : Float)
  | boolean (b : Bool)
  /-- A date, a time of day or both. -/
  | moment
deriving Repr

/-- How a table came about. -/
inductive Origin where
  /-- By its own header. -/
  | header
  /-- On the way to the table of another header. -/
  | implied
  /-- On the way to the value of a dotted key. -/
  | dotted
  /-- As a value between braces. -/
  | braces
deriving DecidableEq, Repr

/-- A key with its place in the source. -/
structure Key where
  name : String
  span : Span
deriving DecidableEq, Repr

/-- What a key stands for. -/
inductive Item where
  | scalar (span : Span) (s : Scalar)
  | array (span : Span) (items : List Item)
  | table (span : Option Span) (origin : Origin) (entries : List (Key × Item))
  /-- The tables of an array that is written with headers. -/
  | tables (span : Option Span) (tables : List (Option Span × List (Key × Item)))
deriving Repr

/-- The entries of a table, in order. -/
abbrev Entries := List (Key × Item)

/-- Where an item stands in the source, if that is one place. -/
def Item.span? : Item → Option Span
  | .scalar span _ => some span
  | .array span _ => some span
  | .table span _ _ => span
  | .tables span _ => span

/-- What the sort of an item is called. -/
def Item.sortName : Item → String
  | .scalar _ (.text _) => "string"
  | .scalar _ (.integer _) => "integer"
  | .scalar _ (.float _) => "float"
  | .scalar _ (.boolean _) => "boolean"
  | .scalar _ .moment => "datetime"
  | .array _ _ => "array"
  | .table _ .braces _ => "inline table"
  | .table _ _ _ => "table"
  | .tables _ _ => "array of tables"

/-- The item under a name. -/
def Entries.find? (entries : Entries) (name : String) : Option Item :=
  (List.find? (fun entry => entry.1.name == name) entries).map (·.2)

/-- Replaces the item under a name. -/
def Entries.replace (entries : Entries) (name : String) (item : Item) : Entries :=
  entries.map fun entry => if entry.1.name = name then (entry.1, item) else entry

/-- Drops the item under a name. -/
def Entries.drop (entries : Entries) (name : String) : Entries :=
  List.filter (fun entry => entry.1.name != name) entries

end JsonSelect.Toml
