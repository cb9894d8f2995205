/-! # Nesting depth

Before a document is read its brackets are counted: a source that opens more than `maxDepth` brackets
inside one another is refused at the bracket that goes too deep. `DepthScan.step` follows one
character; brackets in string literals do not count, and a closing bracket too many changes
nothing. -/

namespace JsonSelect.Reading

/-- How many arrays and objects may be open at once. -/
def maxDepth : Nat := 128

/-- Where the count stands between two characters. -/
structure DepthScan where
  /-- How many brackets are open. -/
  depth : Nat
  /-- Whether a string literal is open. -/
  inString : Bool
  /-- Whether the character before was a backslash that escapes the next one. -/
  escaped : Bool
deriving DecidableEq, Repr

/-- The count before the first character. -/
def DepthScan.start : DepthScan := ⟨0, false, false⟩

/-- The opening brackets. -/
def isOpening (c : Char) : Bool := c = '[' || c = '\x7b'

/-- The closing brackets. -/
def isClosing (c : Char) : Bool := c = ']' || c = '\x7d'

/-- The count behind one more character. -/
def DepthScan.step (s : DepthScan) (c : Char) : DepthScan :=
  if s.inString then
    if s.escaped then { s with escaped := false }
    else if c = '\\' then { s with escaped := true }
    else if c = '"' then { s with inString := false }
    else s
  else if c = '"' then { s with inString := true }
  else if isOpening c then { s with depth := s.depth + 1 }
  else if isClosing c then { s with depth := s.depth - 1 }
  else s

/-- The count behind a text. -/
def DepthScan.scan (s : DepthScan) (cs : List Char) : DepthScan := cs.foldl step s

/-- The offset of the first bracket behind which more than `maxDepth` are open, for a text that
starts at `offset`. -/
def DepthScan.tooDeepFrom? (s : DepthScan) (offset : Nat) : List Char → Option Nat
  | [] => none
  | c :: cs =>
    let s' := s.step c
    if maxDepth < s'.depth then some offset else tooDeepFrom? s' (offset + c.utf8Size) cs

/-- The offset of the first bracket of a source that goes too deep. -/
def tooDeepAt? (source : List Char) : Option Nat := DepthScan.start.tooDeepFrom? 0 source

end JsonSelect.Reading
