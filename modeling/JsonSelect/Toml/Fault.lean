import JsonSelect.Span
import JsonSelect.Text.Parts

/-! # What is wrong with a TOML text

A fault is told by a message below a picture of the line it is in, with marks under the span it
concerns. Columns are counted in characters, marks in bytes. -/

namespace JsonSelect.Toml

/-- What is wrong, and the span that it concerns. -/
structure Fault where
  span : Span
  message : String
deriving DecidableEq, Repr

namespace Fault

/-- How many characters make up the first `bytes` bytes of a text; none if the last one is cut. -/
def wholeChars? (bytes : Nat) : List Char → Option Nat
  | [] => if bytes = 0 then some 0 else none
  | c :: cs =>
    if bytes = 0 then some 0
    else if c.utf8Size ≤ bytes then (wholeChars? (bytes - c.utf8Size) cs).map (· + 1)
    else none

/-- The number of the line that holds the byte at `index`, and the text from that line on with the
offset of its first byte. The text `cs` starts at `offset`; its line, `line`, is `begun`
and starts at `start`. -/
def lineAt (index line start : Nat) (begun : List Char) (offset : Nat) :
    List Char → Nat × Nat × List Char
  | [] => (line, start, begun)
  | c :: cs =>
    if index ≤ offset then (line, start, begun)
    else
      let next := offset + c.utf8Size
      if c = '\n' then lineAt index (line + 1) next cs next cs
      else lineAt index line start begun next cs

/-- The line and the column, counted from zero, of the byte at `index`. What lies behind the last byte
is in its line. -/
def place (source : List Char) (index : Nat) : Nat × Nat :=
  let size := (source.map Char.utf8Size).foldr (· + ·) 0
  let last := min index (size - 1)
  let (line, start, begun) := lineAt last 0 0 source 0 source
  let bytes := last - start + 1
  let column := (wholeChars? bytes begun).getD bytes - 1
  if size = 0 then (0, index) else (line, column + (index - last))

/-- A fault with the line of the source that it is in. -/
def text (source : String) (f : Fault) : String :=
  let cs := source.toList
  let (line, column) := place cs f.span.start
  let number := toString (line + 1)
  let margin := "".pushn ' ' (number.length + 1)
  let content := String.ofList (((Text.parts '\n' cs)[line]?).getD [])
  let marks := "^".pushn '^' (min (f.span.stop - f.span.start) (content.utf8ByteSize - column) - 1)
  let indent := "".pushn ' ' (column + 1)
  s!"TOML parse error at line {number}, column {column + 1}\n" ++
    s!"{margin}|\n{number} | {content}\n{margin}|{indent}{marks}\n{f.message}\n"

end Fault

end JsonSelect.Toml
