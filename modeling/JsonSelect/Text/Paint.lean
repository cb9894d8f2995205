/-! # Painted text

On a terminal a text is painted by an escape sequence before it and one after it that ends the
paint. -/

namespace JsonSelect.Text

/-- The colours that texts are painted in. -/
inductive Colour where
  | red
  | green
  | yellow
  | blue
  | magenta
  /-- A shade of the terminal's palette. -/
  | palette (n : Nat)
deriving DecidableEq, Repr

/-- The parameters of the escape sequence that begins a colour. -/
def Colour.code : Colour → String
  | .red => "31"
  | .green => "32"
  | .yellow => "33"
  | .blue => "34"
  | .magenta => "35"
  | .palette n => s!"38;5;{n}"

/-- An escape sequence with the parameters `code`. -/
def escapeSequence (code : String) : String := "\x1b[" ++ code ++ "m"

/-- A text in the style that `code` begins. -/
def styled (code text : String) : String := escapeSequence code ++ text ++ escapeSequence "0"

/-- A text in a colour. -/
def Colour.paint (colour : Colour) (text : String) : String := styled colour.code text

/-- A text in a colour, or as it is if colours are off. -/
def Colour.paintIf (colour : Colour) (on : Bool) (text : String) : String :=
  if on then colour.paint text else text

end JsonSelect.Text
