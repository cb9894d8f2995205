import JsonSelect.Text.Paint

/-! # Log records

What happens on the way is told in log records: a level, the part of the program they come from, a
message and named values. A record is one line of text. -/

namespace JsonSelect.Log

/-- How much a record matters, the most important ones first. -/
inductive Level where
  | error
  | warn
  | info
  | debug
  | trace
deriving DecidableEq, Repr

namespace Level

/-- The place of a level among all, from one for the most important. -/
def rank : Level → Nat
  | error => 1
  | warn => 2
  | info => 3
  | debug => 4
  | trace => 5

/-- The name of a level, filled up to five characters. -/
def label : Level → String
  | error => "ERROR"
  | warn => " WARN"
  | info => " INFO"
  | debug => "DEBUG"
  | trace => "TRACE"

/-- The colour of a level. -/
def colour : Level → Text.Colour
  | error => .red
  | warn => .yellow
  | info => .green
  | debug => .blue
  | trace => .magenta

end Level

/-- The part of the program that a record comes from. -/
inductive Topic where
  | program
  | configuration
  | reading
  | tree
  | session
  | access
  | shell
deriving DecidableEq, Repr

/-- The name that a part goes by in log filters. -/
def Topic.name : Topic → String
  | .program => "jsonpick"
  | .configuration => "jsonpick::config"
  | .reading => "jsonpick::parser"
  | .tree => "jsonpick::walker"
  | .session => "jsonpick::session"
  | .access => "jsonpick::encoder"
  | .shell => "jsonpick::repl"

/-- Something that happened. -/
structure Record where
  level : Level
  topic : Topic
  message : Option String
  /-- Names with the texts of their values. -/
  fields : List (String × String)
deriving DecidableEq, Repr

/-- A named value of a record. Colours set off the name and the sign. -/
def fieldText (colour : Bool) (field : String × String) : String :=
  if colour then Text.styled "3" field.1 ++ Text.styled "2" "=" ++ field.2
  else field.1 ++ "=" ++ field.2

/-- The line of a record. -/
def Record.text (colour : Bool) (r : Record) : String :=
  let level := r.level.colour.paintIf colour r.level.label
  let parts := r.message.toList ++ r.fields.map (fieldText colour)
  level ++ " " ++ " ".intercalate parts ++ "\n"

end JsonSelect.Log
