import JsonSelect.Document
import JsonSelect.Text.Count

/-! # Locations in a source

A location is a line and a column, both counted from one, the column in characters. Lines end at line
feeds, and a carriage return before the line feed belongs to the line break. A location just behind
the last character of a line is its line break.

* `sourceLines`: the lines of a text with their offsets.
* `Document.offsetOf?`: the byte offset of a location.
* `Location.read?`: a location as it is typed, and `Location.text` as it is shown. -/

namespace JsonSelect

/-- A line and a column. -/
structure Location where
  line : Nat
  column : Nat
deriving DecidableEq, Repr

namespace Location

/-- A location as it is shown. -/
def text (l : Location) : String := s!"{l.line}:{l.column}"

/-- A positive count with blanks around it. -/
def part? (cs : List Char) : Option Nat :=
  match Text.count (Text.trim cs) with
  | .ok 0 => none
  | .ok n => some n
  | .error _ => none

/-- The location that a text denotes: two positive counts around the first colon. -/
def read? (s : String) : Option Location :=
  let cs := s.toList
  let column := (cs.dropWhile (· ≠ ':')).drop 1
  if ':' ∈ cs then do
    let line ← part? (cs.takeWhile (· ≠ ':'))
    let column ← part? column
    return ⟨line, column⟩
  else none

/-- The wording for a text that denotes no location. -/
def invalidMessage (s : String) : String :=
  s!"expected a position as LINE:COLUMN, found `{s}`"

end Location

/-! ### Offsets -/

/-- A line of a text, with the offset of its first byte and without its line feed. -/
structure SourceLine where
  start : Nat
  chars : List Char
deriving DecidableEq, Repr

/-- The lines of a text that starts at `start`. -/
def sourceLines (start : Nat) (cs : List Char) : List SourceLine :=
  match cs with
  | [] => [⟨start, []⟩]
  | c :: cs =>
    if c = '\n' then ⟨start, []⟩ :: sourceLines (start + 1) cs
    else
      match sourceLines (start + c.utf8Size) cs with
      | [] => [⟨start, [c]⟩]
      | l :: ls => ⟨start, c :: l.chars⟩ :: ls

/-- The characters of a line without a carriage return at its end. -/
def SourceLine.content (l : SourceLine) : List Char :=
  if l.chars.getLast? = some '\r' then l.chars.dropLast else l.chars

/-- The offset of a column counted from zero. -/
def SourceLine.offsetOf? (l : SourceLine) (column : Nat) : Option Nat :=
  if column ≤ l.content.length then
    some (l.start + Reading.byteLength (l.content.take column))
  else none

/-- The byte offset of a location in a document. -/
def Document.offsetOf? (d : Document) (l : Location) : Option Nat :=
  if l.line = 0 ∨ l.column = 0 then none
  else do
    let line ← (sourceLines 0 d.source.toList)[l.line - 1]?
    line.offsetOf? (l.column - 1)

end JsonSelect
