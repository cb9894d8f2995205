import JsonSelect.Node

/-! # Paths

A path leads from the root of a document to a node: one segment for each array or object that is
entered, an index in decimal or the name of a key. Whether a segment reads as an index is settled by
its text alone; `Node.at?` follows it by what it stands at. -/

namespace JsonSelect

/-- The segments from the root of a document to a node. The empty path is the root. -/
abbrev Path := List String

/-- How a segment reads. -/
inductive Shape where
  | index
  | key
deriving DecidableEq, Repr

/-- ASCII digits, at least one, read as an index, everything else as a key. -/
def shape (segment : String) : Shape :=
  let cs := segment.toList
  if !cs.isEmpty && cs.all Char.isDigit then .index else .key

/-- The segment of the item at `index`. -/
def indexSegment (index : Nat) : String := String.ofList (decimalChars index)

namespace Path

/-- Whether a path leads nowhere but to the root. -/
def isRoot (p : Path) : Bool := p.isEmpty

/-- The path to a part of the node at `p`. -/
def child (p : Path) (segment : String) : Path := p ++ [segment]

/-- A path as an array of strings. -/
def value (p : Path) : Value := .array (p.map Value.string)

/-- A path as text: the array of its segments, which stays unambiguous whatever the keys contain. -/
def display (p : Path) : String := p.value.compact

end Path

namespace Node

/-- The part of a node that a segment names: an item of an array by its index, a member of an object
by its key. -/
def child? (n : Node) (segment : String) : Option Node :=
  match n with
  | .scalar _ _ => none
  | .array _ items => (items.zipIdx.find? fun item => indexSegment item.2 = segment).map (·.1)
  | .object _ members => (members.find? fun m => m.1.name = segment).map (·.2)

/-- The node that a path leads to. -/
def at? (n : Node) : Path → Option Node
  | [] => some n
  | segment :: p => (n.child? segment).bind (·.at? p)

end Node

end JsonSelect
