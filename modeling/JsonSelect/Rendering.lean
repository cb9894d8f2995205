import JsonSelect.Text.Paint
import JsonSelect.Tree

/-! # Rendering a tree

A tree is rendered one text line for each of its lines: a mark, the indented tokens filled up to the
widest line, and the numbers of the line's units. The units of the selected path and of the hovered
path are emphasized, which changes marks and colours only. -/

namespace JsonSelect

/-- The paths whose units are emphasized. -/
structure Emphasis where
  hover : Option Path
  selected : Option Path
deriving DecidableEq, Repr

/-- No emphasis. -/
def Emphasis.none : Emphasis := ⟨Option.none, Option.none⟩

/-- How a token or a line is emphasized. -/
inductive Mark where
  | blank
  | hover
  | selected
deriving DecidableEq, Repr

/-- The character in front of a line. -/
def Mark.char : Mark → Char
  | .blank => ' '
  | .hover => '~'
  | .selected => '>'

/-- The colour of a token. -/
def Mark.colour? : Mark → Option Text.Colour
  | .blank => none
  | .hover => some .yellow
  | .selected => some .green

/-- The stronger of two marks: selected, then hovered. -/
def Mark.stronger : Mark → Mark → Mark
  | .selected, _ => .selected
  | _, .selected => .selected
  | .hover, _ => .hover
  | _, .hover => .hover
  | .blank, .blank => .blank

/-- The mark of the units of a path. -/
def Emphasis.markOf (e : Emphasis) (path : Path) : Mark :=
  if e.selected = some path then .selected
  else if e.hover = some path then .hover
  else .blank

/-- The marks of the units of a tree, in order. -/
def Tree.marks (t : Tree) (e : Emphasis) : Array Mark :=
  (t.units.map fun u => e.markOf u.path).toArray

/-- The mark of a token, where `marks` are those of the units. -/
def Token.mark (marks : Array Mark) (token : Token) : Mark :=
  (token.unit.bind fun id => marks[id]?).getD .blank

/-- The mark of a line: the strongest of its tokens' marks. -/
def Line.mark (marks : Array Mark) (l : Line) : Mark :=
  l.tokens.foldl (fun m token => m.stronger (token.mark marks)) .blank

/-- The indentation of a line. -/
def Line.indentation (l : Line) : String := Value.indent l.depth

/-- A line without emphasis. -/
def Line.text (l : Line) : String := l.indentation ++ String.join (l.tokens.map Token.text)

/-- The numbers of the units of a line. -/
def Line.ids (l : Line) : List Nat := l.tokens.filterMap Token.unit

/-- The number of characters of the widest line. -/
def Tree.width (t : Tree) : Nat := (t.lines.map fun l => l.text.length).foldl max 0

/-- The text of a token, in its mark's colour if colours are on. -/
def Mark.paint (m : Mark) (colour : Bool) (text : String) : String :=
  match m.colour? with
  | some c => c.paintIf colour text
  | none => text

/-- One line as text, filled up to `width` characters, with a line feed at its end. -/
def Line.render (marks : Array Mark) (colour : Bool) (width : Nat) (l : Line) : String :=
  let tokens := l.tokens.map fun token => (token.mark marks).paint colour token.text
  let fill := "".pushn ' ' (width - l.text.length)
  let ids := " ".intercalate (l.ids.map fun id => s!"#{id}")
  s!"{(l.mark marks).char} {l.indentation}{String.join tokens}{fill}  {ids}\n"

/-- A tree as text. -/
def Tree.render (t : Tree) (e : Emphasis) (colour : Bool) : String :=
  let marks := t.marks e
  let width := t.width
  String.join (t.lines.map (Line.render marks colour width))

end JsonSelect
