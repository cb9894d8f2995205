import JsonSelect.CommandLine.Reader
import JsonSelect.Session
import JsonSelect.Text.Inspect

/-! # Commands

The commands of the interactive mode. A `Verb` is what a command line starts with, a `Command` is a
verb with its value. `Command.change` says what a command asks of a session. -/

namespace JsonSelect.Shell

open CommandLine

/-- What a command line starts with. -/
inductive Verb where
  | show
  | pick
  | at
  | hover
  | lang
  | langs
  | all
  | load
  | quit
deriving DecidableEq, Repr

namespace Verb

/-- All verbs, in the order they are listed in. -/
def list : List Verb := [.show, .pick, .at, .hover, .lang, .langs, .all, .load, .quit]

theorem mem_list (v : Verb) : v ∈ list := by
  cases v <;> decide

/-- The word for a verb. -/
def name : Verb → String
  | .show => "show"
  | .pick => "pick"
  | .at => "at"
  | .hover => "hover"
  | .lang => "lang"
  | .langs => "langs"
  | .all => "all"
  | .load => "load"
  | .quit => "quit"

/-- The words that do as well. -/
def aliases : Verb → List String
  | .quit => ["exit"]
  | _ => []

/-- What a verb does. -/
def about : Verb → String
  | .show => "Print the document with the id of every selectable unit"
  | .pick => "Select the unit with the given id"
  | .at => "Select the unit at LINE:COLUMN of the document source"
  | .hover => "Emphasize the node of a unit; without an id, clear the emphasis"
  | .lang => "Switch the target language"
  | .langs => "List the target languages"
  | .all => "Print the expression for the selection in every language"
  | .load => "Replace the document with the contents of a file"
  | .quit => "Leave the session"

/-- The role of the value that a verb takes. -/
def role? : Verb → Option ArgumentRole
  | .pick => some (.positional "UNIT" .count true)
  | .at => some (.positional "POSITION" .location true)
  | .hover => some (.positional "UNIT" .count false)
  | .lang => some (.positional "LANGUAGE" .language true)
  | .load => some (.positional "INPUT" .file true)
  | .show | .langs | .all | .quit => none

/-- The name that the value of a verb is kept under. -/
def valueName : String := "value"

/-- What a verb takes, after the words `invocation`. -/
def form (v : Verb) (invocation : String) : Form :=
  let value := v.role?.toList.map fun role => (⟨valueName, none, role, "", []⟩ : Argument)
  ⟨unwords [invocation, v.name], v.about, value ++ [Argument.helpOption]⟩

/-- The verb of a word. -/
def ofWord? (word : String) : Option Verb :=
  list.find? fun v => v.name == word || v.aliases.contains word

theorem ofWord?_name (v : Verb) : ofWord? v.name = some v := by
  cases v <;> decide

end Verb

/-- A command of the interactive mode. -/
inductive Command where
  | show
  | pick (id : Nat)
  | at (location : Location)
  | hover (id : Option Nat)
  | language (l : Language)
  | languages
  | all
  | load (name : String)
  | quit
deriving DecidableEq, Repr

namespace Command

/-- The command of a verb with its value, if the value is of the right sort. -/
def ofVerb? : Verb → Option Given → Option Command
  | .show, none => some .show
  | .pick, some (.count id) => some (.pick id)
  | .at, some (.location l) => some (.at l)
  | .hover, none => some (.hover none)
  | .hover, some (.count id) => some (.hover (some id))
  | .lang, some (.language l) => some (.language l)
  | .langs, none => some .languages
  | .all, none => some .all
  | .load, some (.file name) => some (.load name)
  | .quit, none => some .quit
  | _, _ => none

/-- A value with its name in log records. -/
def fieldText (command field value : String) : String :=
  command ++ " \x7b " ++ field ++ ": " ++ value ++ " \x7d"

/-- A command in log records. -/
def logText : Command → String
  | .show => "Show"
  | .pick id => fieldText "Pick" "unit" (toString id)
  | .at l =>
    fieldText "At" "position" <|
      "Position \x7b line: " ++ toString l.line ++ ", column: " ++ toString l.column ++ " \x7d"
  | .hover none => fieldText "Hover" "unit" "None"
  | .hover (some id) => fieldText "Hover" "unit" ("Some(" ++ toString id ++ ")")
  | .language l => fieldText "Lang" "language" l.logName
  | .languages => "Langs"
  | .all => "All"
  | .load name => fieldText "Load" "input" (Text.inspect name)
  | .quit => "Quit"

end Command

end JsonSelect.Shell
