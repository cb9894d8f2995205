import JsonSelect.CommandLine.Argument
import JsonSelect.Text.Phrase

/-! # Usage lines and help texts

A usage line shows how a command is typed. Without anything typed yet it shows the whole form;
otherwise only what was typed and what has to be. A help text says what a command does and explains
its arguments in two columns. -/

namespace JsonSelect.CommandLine

open Text (Phrase)
open Text.Phrase (plain heading literal words listed fill)

/-- Words with a blank between two of them; empty ones are left out. -/
def unwords (ws : List String) : String := " ".intercalate (ws.filter (!·.isEmpty))

/-- The list of names that a value may be, each of them written by `name`. -/
def possibleNames (name : String → Phrase) (names : List String) : Phrase :=
  plain "[possible values: " ++ listed (names.map name) ++ plain "]"

/-- An argument with a name, in a usage line. -/
def Argument.typed (a : Argument) : Phrase :=
  match a.role with
  | .option label _ => literal ("--" ++ a.name) ++ plain (" <" ++ label ++ ">")
  | _ => literal ("--" ++ a.name)

/-- An argument among several that are told apart by bars. -/
def Argument.alternative (a : Argument) : String :=
  match a.role with
  | .positional label _ _ => label
  | _ => a.display

/-- Whether an argument asks for something other than carrying out the command. -/
def Argument.isInquiry (a : Argument) : Bool := a.role == .help || a.role == .version

/-- The usage of a command of which nothing is typed yet. -/
def Form.fullUsage (f : Form) : Phrase :=
  let options := if f.options.all Argument.isInquiry then "" else "[OPTIONS]"
  words <| [literal f.invocation, plain options] ++
    f.positional?.toList.map fun a => plain a.display

/-- The usage of a command of which the arguments `used` are typed. -/
def Form.usage (f : Form) (used : List Argument) : Phrase :=
  if used.isEmpty then f.fullUsage
  else
    let options := (used.filter (!·.isPositional)).eraseDups
    let positional := f.positional?.toList.map fun a =>
      if a.isRequired || used.contains a then a.displayUsed else a.display
    words ([literal f.invocation] ++ options.map Argument.typed ++ positional.map plain)

/-- The usage of a command of which the arguments `used` are typed, where all that carry it out are
shown as one choice. -/
def Form.choiceUsage (f : Form) (used : List Argument) : Phrase :=
  let choice := (f.arguments.filter (!·.isInquiry)).map Argument.alternative
  words ([literal f.invocation] ++ (used.filter Argument.isInquiry).map Argument.typed ++
    [plain ("<" ++ "|".intercalate choice ++ ">")])

/-- The left column of an argument in a help text. -/
def Argument.column (a : Argument) : Phrase :=
  if a.isPositional then plain a.display
  else
    let letter := a.letter.elim (plain "    ") fun c =>
      literal (String.ofList ['-', c]) ++ plain ", "
    letter ++ a.typed

/-- The right column of an argument in a help text. -/
def Argument.explanation (a : Argument) : Phrase :=
  words [plain a.about, if a.names.isEmpty then Phrase.none else possibleNames plain a.names]

/-- The line of a usage. -/
def usageLine (usage : Phrase) : Phrase := heading "Usage:" ++ plain " " ++ usage

/-- Entries of a help text under a heading, in two columns. -/
def columns (title : String) (entries : List (Phrase × Phrase)) : Phrase :=
  let width := (entries.map (·.1.text.length)).foldl max 0
  let rows := entries.map fun (left, right) =>
    plain "  " ++ fill width left ++ plain "  " ++ right ++ plain "\n"
  heading (title ++ ":") ++ plain "\n" ++ Phrase.join rows

/-- Arguments of a help text under a heading; nothing if there are none. -/
def argumentColumns (title : String) (arguments : List Argument) : Phrase :=
  if arguments.isEmpty then Phrase.none
  else plain "\n" ++ columns title (arguments.map fun a => (a.column, a.explanation))

/-- The help text of a command. -/
def Form.helpText (f : Form) : Phrase :=
  plain (f.about ++ "\n\n") ++ usageLine f.fullUsage ++ plain "\n" ++
    argumentColumns "Arguments" f.positional?.toList ++ argumentColumns "Options" f.options

end JsonSelect.CommandLine
