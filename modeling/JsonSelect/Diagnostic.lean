import JsonSelect.Document
import JsonSelect.Text.Paint
import JsonSelect.Text.Width

/-! # Diagnostics

A parse error is shown by its message and the lines of the source that it concerns. Below the last of
them an arrow leads to the error's reason: from the middle of the marked characters if they stand on one
line, from the left margin if they stand on several. Positions count characters, not bytes, and every
drawn cell is as wide as the character above it.

* `pageLines`: the lines of a source as they are shown.
* `Label`: the marked characters, and `Label.ofError` those of a parse error.
* `Diagnostic.text`: the pictures of all errors. -/

namespace JsonSelect

/-! ### Lines -/

/-- A shown line: where it starts, and its characters with those that end it. -/
structure PageLine where
  start : Nat
  chars : List Char
deriving DecidableEq, Repr

/-- The characters that end a shown line. -/
def endsPageLine (c : Char) : Bool :=
  let n := c.toNat
  (0x0A ≤ n && n ≤ 0x0D) || n == 0x85 || n == 0x2028 || n == 0x2029

/-- The lines of a text that starts at `start`. A carriage return and a line feed end a line
together. -/
def pageLines (start : Nat) : List Char → List PageLine
  | [] => []
  | c :: cs =>
    if endsPageLine c && !(c = '\r' && cs.head? = some '\n') then
      ⟨start, [c]⟩ :: pageLines (start + 1) cs
    else
      match pageLines (start + 1) cs with
      | [] => [⟨start, [c]⟩]
      | l :: ls => ⟨start, c :: l.chars⟩ :: ls

/-- The characters of a line that are drawn. -/
def PageLine.shown (l : PageLine) : List Char := Text.trimEnd l.chars

/-- How many columns each of the first `cells` characters of a line takes; one column for each that is
not drawn. -/
def PageLine.widths (l : PageLine) (cells : Nat) : List Nat :=
  let drawn := l.shown.zipIdx.map fun (c, column) => Text.columnsAt column c
  drawn.take cells ++ List.replicate (cells - drawn.length) 1

/-- The number of the line, counted from zero, that holds the character at `offset`. What lies behind
the last line belongs to it. -/
def lineIndexAt (lines : List PageLine) (offset : Nat) : Nat :=
  (lines.takeWhile (·.start ≤ offset)).length - 1

/-! ### Labels -/

/-- How many characters of a text stand in front of the byte `byte`, or in all of the text if it is shorter;
`none` if the byte is within a character. -/
def charsBefore? (byte : Nat) : List Char → Option Nat
  | [] => some 0
  | c :: cs =>
    if byte = 0 then some 0
    else if c.utf8Size ≤ byte then (charsBefore? (byte - c.utf8Size) cs).map (· + 1)
    else none

/-- The characters from `start` up to, not including, `stop`, which `message` is about. -/
structure Label where
  start : Nat
  stop : Nat
  message : String
deriving DecidableEq, Repr

/-- The label of a parse error in a source. A byte within a character would count as the start. -/
def Label.ofError (source : List Char) (e : ParseError) : Label :=
  ⟨(charsBefore? e.span.start source).getD 0, (charsBefore? e.span.stop source).getD 0, e.reason⟩

/-- Whether a label marks the character at `offset`. -/
def Label.marks (l : Label) (offset : Nat) : Bool := l.start ≤ offset && offset < l.stop

/-- The last character of a label, or its place if it has none. -/
def Label.last (l : Label) : Nat := max l.start (l.stop - 1)

/-- Where the arrow of a label starts. -/
def Label.middle (l : Label) : Nat := (l.start + l.stop) / 2

/-! ### Drawing -/

namespace Diagnostic

/-- A text `n` times over. -/
def times (n : Nat) (s : String) : String := String.join (List.replicate n s)

/-- Paints the frame around the lines and the line numbers. -/
def frame (colour : Bool) (s : String) : String := (Text.Colour.palette 246).paintIf colour s

/-- Paints the margin beside lines without a number. -/
def margin (colour : Bool) (s : String) : String := (Text.Colour.palette 240).paintIf colour s

/-- Paints the characters that no label marks. -/
def unmarked (colour : Bool) (s : String) : String := (Text.Colour.palette 249).paintIf colour s

/-- Paints the label and its arrow. -/
def marked (colour : Bool) (s : String) : String := Text.Colour.red.paintIf colour s

/-- The drawn characters of a line. -/
def lineText (colour : Bool) (label : Label) (l : PageLine) : String :=
  String.join <| l.shown.zipIdx.map fun (c, column) =>
    let paint := if label.marks (l.start + column) then marked colour else unmarked colour
    if Text.isBlank c then times (Text.columnsAt column c) (paint " ")
    else paint (String.ofList [c])

/-- The margin of a line with a number. -/
def numbered (colour : Bool) (width number : Nat) : String :=
  let digits := toString number
  let filled := times (width - digits.length) " " ++ digits ++ " │"
  " " ++ frame colour filled ++ " "

/-- The margin of a line without a number. -/
def unnumbered (colour : Bool) (width : Nat) (bar : String) : String :=
  " " ++ margin colour (times (width + 1) " " ++ bar) ++ " "

/-- The cells under a line as far as two behind the label, each drawn by its column and its width. -/
def cells (label : Label) (l : PageLine) (draw : Nat → Nat → String) : String :=
  String.join <| (l.widths (label.stop - l.start + 2)).zipIdx.map fun (width, column) =>
    draw column width

/-- The row that underlines a label on one line. The arrow starts from it. -/
def underline (colour : Bool) (label : Label) (l : PageLine) : String :=
  let joint := if label.start < label.stop then "┬" else "│"
  cells label l fun column width =>
    if column = label.middle - l.start && 0 < width then
      marked colour joint ++ times (width - 1) (marked colour "─")
    else if label.marks (l.start + column) then times width (marked colour "─")
    else times width " "

/-- The row of the arrow to the message of a label on one line. -/
def arrow (colour : Bool) (label : Label) (l : PageLine) : String :=
  cells label l fun column width =>
    if column < label.middle - l.start then times width " "
    else if column = label.middle - l.start && 0 < width then
      marked colour "╰" ++ times (width - 1) (marked colour "─")
    else times width (marked colour "─")

/-- The lines of a label that stands on one line. -/
def inlineRows (colour : Bool) (width : Nat) (label : Label) (number : Nat) (l : PageLine) :
    List String :=
  [numbered colour width number ++ lineText colour label l,
    unnumbered colour width "│" ++ underline colour label l,
    unnumbered colour width "│" ++ arrow colour label l ++ " " ++ label.message]

/-- The bracket in front of the first and the last line of a label on several lines. -/
def hook (colour : Bool) (corner : String) : String :=
  String.join ([corner, "─", "▶", " "].map (marked colour))

/-- The lines of a label from the line `first` to the line `last`. Lines between them are left
out. -/
def blockRows (colour : Bool) (width : Nat) (label : Label) (firstNumber : Nat) (first : PageLine)
    (lastNumber : Nat) (last : PageLine) : List String :=
  let columns := (last.widths (last.chars.length + 2)).foldr (· + ·) 0
  let gap := unnumbered colour width "┆" ++ marked colour "┆" ++ "   "
  [numbered colour width firstNumber ++ hook colour "╭" ++ lineText colour label first] ++
    (if firstNumber + 1 < lastNumber then [gap] else []) ++
    [numbered colour width lastNumber ++ hook colour "├" ++ lineText colour label last,
      unnumbered colour width "│" ++ marked colour "│" ++ times (columns + 3) " ",
      unnumbered colour width "│" ++ marked colour "╰" ++ times (columns + 3) (marked colour "─") ++
        " " ++ label.message]

/-- The line that names the document and the start of the label. -/
def heading (colour : Bool) (width : Nat) (name : String) (line column : Nat) : String :=
  times (width + 2) " " ++ String.join (["╭", "─", "["].map (frame colour)) ++
    s!"{name}:{line}:{column}" ++ frame colour "]"

/-- The rows of a label between the frame, and the width of the line numbers. -/
def rows (colour : Bool) (label : Label) (lines : List PageLine) (width : Nat) : List String :=
  let first := lineIndexAt lines label.start
  let last := lineIndexAt lines label.last
  match lines[first]?, lines[last]? with
  | some f, some l =>
    if first = last then inlineRows colour width label (first + 1) f
    else blockRows colour width label (first + 1) f (last + 1) l
  | _, _ => []

/-- The picture of a label in a source, below a message. A source without lines shows the message only. -/
def ofLabel (colour : Bool) (name message : String) (source : List Char) (label : Label) : String :=
  let lines := pageLines 0 source
  let title := marked colour "Error:" ++ " " ++ message
  let first := lineIndexAt lines label.start
  let width := (toString (lineIndexAt lines label.last + 1)).length
  match lines[first]? with
  | none => title ++ "\n"
  | some l =>
    let top :=
      [title, heading colour width name (first + 1) (label.start - l.start + 1),
        times (width + 2) " " ++ frame colour "│"]
    let bottom := frame colour (times (width + 2) "─" ++ "╯")
    String.join ((top ++ rows colour label lines width ++ [bottom]).map (· ++ "\n"))

/-- The picture of a parse error in a source that goes by `name`. -/
def ofError (colour : Bool) (name source : String) (e : ParseError) : String :=
  ofLabel colour name e.message source.toList (Label.ofError source.toList e)

/-- The pictures of parse errors in a source that goes by `name`, one below the other. -/
def text (colour : Bool) (name source : String) (errors : List ParseError) : String :=
  String.join (errors.map (ofError colour name source))

end Diagnostic

end JsonSelect
