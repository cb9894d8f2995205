import JsonSelect.Language
import JsonSelect.Path

/-! # Access expressions

An access expression leads from a variable, the *receiver*, to a node: each segment of the node's
path appends one access. What an access looks like depends on the language and on how the segment
reads, and is held in one `Style` for each language. Expressions are plausible rather than typed: no
casts are added. -/

namespace JsonSelect

/-- How one segment is appended to an expression: between two texts, and perhaps as a string. -/
structure Access where
  before : String
  behind : String
  /-- Whether the segment is written as a string. -/
  quoted : Bool
deriving DecidableEq, Repr

/-- The text that appends a segment. -/
def Access.append (a : Access) (segment : String) : String :=
  a.before ++ (if a.quoted then Text.quote segment else segment) ++ a.behind

/-- Which access a segment takes. -/
structure Style where
  /-- For segments that read as an index. -/
  index : Access
  /-- For identifiers. -/
  name : Access
  /-- For the other segments. -/
  key : Access
deriving DecidableEq, Repr

/-- Square brackets throughout. -/
def Style.brackets : Style := ⟨⟨"[", "]", false⟩, ⟨"[", "]", true⟩, ⟨"[", "]", true⟩⟩

/-- Square brackets, and points in front of identifiers. -/
def Style.points : Style := ⟨⟨"[", "]", false⟩, ⟨".", "", false⟩, ⟨"[", "]", true⟩⟩

/-- Calls of a getter throughout. -/
def Style.getters : Style :=
  ⟨⟨".get(", ")", false⟩, ⟨".get(", ")", true⟩, ⟨".get(", ")", true⟩⟩

/-- The style of a language. -/
def Language.style : Language → Style
  | .javascript => .points
  | .java => .getters
  | .python | .cpp | .csharp | .go => .brackets

/-- The characters that may start an identifier. -/
def startsIdentifier (c : Char) : Bool := c.isAlpha || c = '_' || c = '$'

/-- The characters that may continue an identifier. -/
def continuesIdentifier (c : Char) : Bool := startsIdentifier c || c.isDigit

/-- ASCII letters, digits, underscores and dollar signs, at least one of them, the first no digit. -/
def isIdentifier (s : String) : Bool :=
  match s.toList with
  | [] => false
  | c :: cs => startsIdentifier c && cs.all continuesIdentifier

/-- The access that a segment takes. -/
def Style.access (style : Style) (segment : String) : Access :=
  match shape segment with
  | .index => style.index
  | .key => if isIdentifier segment then style.name else style.key

/-- The text that a segment appends. -/
def Style.segment (style : Style) (segment : String) : String :=
  (style.access segment).append segment

/-- The expression that leads from a receiver along a path. -/
def Style.expression (style : Style) (receiver : String) (path : Path) : String :=
  path.foldl (fun code segment => code ++ style.segment segment) receiver

/-- The expression that leads from a receiver along a path, in a language. -/
def Language.expression (l : Language) (receiver : String) (path : Path) : String :=
  l.style.expression receiver path

end JsonSelect
