import JsonSelect.Path

/-! # The displayed tree

A document is displayed as lines of tokens. Some tokens are *units*, which can be selected: a scalar
and either bracket of a container stand for the node itself, a key stands for the node it names. Units
are numbered from zero in the order of display.

* `Node.units`: the units of a node at a path, in order; a unit's number is its place in the list.
* `Node.lines`: the lines of a node, the first of which continues the tokens that lead up to it. -/

namespace JsonSelect

/-- What kind of token a unit is. -/
inductive Role where
  | literal
  | opening
  | closing
  | key
deriving DecidableEq, Repr

/-- A token that can be selected. -/
structure TreeUnit where
  role : Role
  /-- The path to the node that the unit stands for. -/
  path : Path
  /-- Where the token stands in the source: the bracket, or the whole literal or key. -/
  span : Span
  /-- The node that the unit stands for. -/
  node : Node
deriving Repr

/-- What selecting a unit gives. -/
structure Selection where
  path : Path
  value : Value
  kind : Kind
deriving Repr

/-- The selection of the node that a unit stands for. -/
def TreeUnit.select (u : TreeUnit) : Selection := ⟨u.path, u.node.value, u.node.kind⟩

/-- A piece of displayed text, and the number of the unit that it is. -/
structure Token where
  text : String
  unit : Option Nat
deriving DecidableEq, Repr

/-- Text that is no unit. -/
def Token.plain (text : String) : Token := ⟨text, none⟩

/-- A displayed line: its indentation and its tokens. -/
structure Line where
  depth : Nat
  tokens : List Token
deriving DecidableEq, Repr

namespace Node

/-! ### Units -/

/-- The first byte of a node. -/
def openingSpan (span : Span) : Span := ⟨span.start, span.start + 1⟩

/-- The last byte of a node. -/
def closingSpan (span : Span) : Span := ⟨span.stop - 1, span.stop⟩

mutual

/-- The units of a node that stands at `path`. -/
def units (path : Path) : Node → List TreeUnit
  | .scalar span s => [⟨.literal, path, span, .scalar span s⟩]
  | .array span items =>
    ⟨.opening, path, openingSpan span, .array span items⟩ ::
      (itemUnits path 0 items ++ [⟨.closing, path, closingSpan span, .array span items⟩])
  | .object span members =>
    ⟨.opening, path, openingSpan span, .object span members⟩ ::
      (memberUnits path members ++ [⟨.closing, path, closingSpan span, .object span members⟩])

/-- The units of the items of an array at `path`, the first of which has the index `index`. -/
def itemUnits (path : Path) (index : Nat) : List Node → List TreeUnit
  | [] => []
  | n :: ns => n.units (path.child (indexSegment index)) ++ itemUnits path (index + 1) ns

/-- The units of the members of an object at `path`. -/
def memberUnits (path : Path) : List (Key × Node) → List TreeUnit
  | [] => []
  | (key, n) :: ms =>
    ⟨.key, path.child key.name, key.span, n⟩ ::
      (n.units (path.child key.name) ++ memberUnits path ms)

end

mutual

/-- How many units a node has. -/
def unitCount : Node → Nat
  | .scalar _ _ => 1
  | .array _ items => itemUnitCount items + 2
  | .object _ members => memberUnitCount members + 2

/-- How many units the items of an array have. -/
def itemUnitCount : List Node → Nat
  | [] => 0
  | n :: ns => n.unitCount + itemUnitCount ns

/-- How many units the members of an object have. -/
def memberUnitCount : List (Key × Node) → Nat
  | [] => 0
  | (_, n) :: ms => n.unitCount + 1 + memberUnitCount ms

end

mutual

theorem length_units (path : Path) : (n : Node) → (n.units path).length = n.unitCount
  | .scalar _ _ => rfl
  | .array _ items => by simp [units, unitCount, length_itemUnits path 0 items]
  | .object _ members => by simp [units, unitCount, length_memberUnits path members]

theorem length_itemUnits (path : Path) (index : Nat) :
    (ns : List Node) → (itemUnits path index ns).length = itemUnitCount ns
  | [] => rfl
  | n :: ns => by
    simp [itemUnits, itemUnitCount, length_units _ n, length_itemUnits path (index + 1) ns]

theorem length_memberUnits (path : Path) :
    (ms : List (Key × Node)) → (memberUnits path ms).length = memberUnitCount ms
  | [] => rfl
  | (_, n) :: ms => by
    simp [memberUnits, memberUnitCount, length_units _ n, length_memberUnits path ms]
    omega

end

/-! ### Lines -/

/-- The comma behind every part of a container but the last. -/
def commaIf (comma : Bool) : List Token := if comma then [.plain ","] else []

mutual

/-- The lines of a node. The first unit has the number `first`; `lead` stands in front of the first
line, and a comma behind the last one if `comma` says so. -/
def lines (depth first : Nat) (lead : List Token) (comma : Bool) : Node → List Line
  | .scalar _ s => [⟨depth, lead ++ [⟨s.text, some first⟩] ++ commaIf comma⟩]
  | .array _ [] =>
    [⟨depth, lead ++ [⟨"[", some first⟩, ⟨"]", some (first + 1)⟩] ++ commaIf comma⟩]
  | .array _ (n :: ns) =>
    ⟨depth, lead ++ [⟨"[", some first⟩]⟩ ::
      (itemLines (depth + 1) (first + 1) (n :: ns) ++
        [⟨depth, ⟨"]", some (first + 1 + itemUnitCount (n :: ns))⟩ :: commaIf comma⟩])
  | .object _ [] =>
    [⟨depth, lead ++ [⟨"\x7b", some first⟩, ⟨"\x7d", some (first + 1)⟩] ++ commaIf comma⟩]
  | .object _ (m :: ms) =>
    ⟨depth, lead ++ [⟨"\x7b", some first⟩]⟩ ::
      (memberLines (depth + 1) (first + 1) (m :: ms) ++
        [⟨depth, ⟨"\x7d", some (first + 1 + memberUnitCount (m :: ms))⟩ :: commaIf comma⟩])

/-- The lines of the items of an array. -/
def itemLines (depth first : Nat) : List Node → List Line
  | [] => []
  | n :: ns =>
    n.lines depth first [] (!ns.isEmpty) ++ itemLines depth (first + n.unitCount) ns

/-- The lines of the members of an object: the key and a colon lead up to each node. -/
def memberLines (depth first : Nat) : List (Key × Node) → List Line
  | [] => []
  | (key, n) :: ms =>
    n.lines depth (first + 1) [⟨Text.quote key.name, some first⟩, .plain ": "] (!ms.isEmpty) ++
      memberLines depth (first + 1 + n.unitCount) ms

end

end Node

/-! ### Trees -/

/-- The units and the lines of a node. -/
structure Tree where
  units : List TreeUnit
  lines : List Line
deriving Repr

/-- The tree of a node that stands at `path`. -/
def Node.treeAt (path : Path) (n : Node) : Tree := ⟨n.units path, n.lines 0 0 [] false⟩

/-- The tree of the root of a document. -/
def Node.tree (n : Node) : Tree := n.treeAt []

/-- The unit with a number. -/
def Tree.unit? (t : Tree) (id : Nat) : Option TreeUnit := t.units[id]?

/-- The number of the first unit whose token covers the byte at `offset`. -/
def Tree.idAt? (t : Tree) (offset : Nat) : Option Nat := t.units.findIdx? (·.span.covers offset)

/-- The first unit whose token covers the byte at `offset`. Blanks and separators belong to none. -/
def Tree.unitAt? (t : Tree) (offset : Nat) : Option TreeUnit :=
  t.units.find? (·.span.covers offset)

end JsonSelect
