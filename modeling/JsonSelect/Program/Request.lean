import JsonSelect.CommandLine.Reader
import JsonSelect.Session
import JsonSelect.Text.Parts

/-! # What the program is asked for

The arguments of the program and the request that they make. Options that exclude each other never
occur in one request, because the reader refuses them. -/

namespace JsonSelect.Program

open CommandLine

/-- The version of the program. -/
def version : String := "0.1.0"

/-- The argument that names the document. -/
def inputArgument : Argument :=
  ⟨"input", none, .positional "INPUT" .file true,
    "The path to a JSON document, or `-` to read it from stdin", []⟩

/-- The option for the target language. -/
def languageOption : Argument :=
  ⟨"lang", some 'l', .option "LANG" .language, "Target language of the generated expression", []⟩

/-- The option that selects a unit by its number. -/
def unitOption : Argument :=
  ⟨"unit", some 'u', .option "UNIT" .count,
    "Select the unit with this id, as shown in the right-hand column of the tree", ["at"]⟩

/-- The option that selects a unit by its location. -/
def locationOption : Argument :=
  ⟨"at", none, .option "AT" .location, "Select the unit at LINE:COLUMN of the input", []⟩

/-- The switch for expressions in all languages. -/
def allSwitch : Argument :=
  ⟨"all", none, .switch, "Print the expression in every target language", []⟩

/-- The switch for a report as JSON. -/
def jsonSwitch : Argument := ⟨"json", none, .switch, "Print the selection as JSON", []⟩

/-- The switch for the interactive mode. -/
def interactiveSwitch : Argument :=
  ⟨"interactive", some 'i', .switch,
    "Keep reading commands from stdin after loading the document", ["unit", "at", "json"]⟩

/-- The option for the configuration file. -/
def configOption : Argument :=
  ⟨"config", none, .option "CONFIG" .file,
    "Configuration file. Defaults to `jsonpick.toml` in the working directory, if present", []⟩

/-- The switch against colours. -/
def noColourSwitch : Argument := ⟨"no-color", none, .switch, "Never color the output", []⟩

/-- What the program takes. -/
def form : Form :=
  ⟨"jsonpick",
    "Pick a node out of a JSON document and get the expression that reaches it in Python, " ++
      "JavaScript, C++, Java, C# or Go",
    [inputArgument, languageOption, unitOption, locationOption, allSwitch, jsonSwitch,
      interactiveSwitch, configOption, noColourSwitch, Argument.helpOption,
      Argument.versionOption]⟩

/-- What the program is asked for. -/
structure Request where
  /-- The file of the document, or the sign for standard input. -/
  input : String
  language : Option Language
  unit : Option Nat
  location : Option Location
  /-- Whether expressions in all languages are asked for. -/
  all : Bool
  /-- Whether a report as JSON is asked for. -/
  json : Bool
  interactive : Bool
  /-- The configuration file. -/
  config : Option String
  /-- Whether colours are refused. -/
  noColour : Bool
deriving DecidableEq, Repr

/-- The language that a value is. -/
def asLanguage? : Given → Option Language
  | .language l => some l
  | _ => none

/-- The count that a value is. -/
def asCount? : Given → Option Nat
  | .count n => some n
  | _ => none

/-- The location that a value is. -/
def asLocation? : Given → Option Location
  | .location l => some l
  | _ => none

/-- The file name that a value is. -/
def asFile? : Given → Option String
  | .file name => some name
  | _ => none

/-- The request of the arguments that were taken. -/
def Request.ofTaken (taken : List Taken) : Request :=
  let value (a : Argument) := valueOf? taken a.name
  let given (a : Argument) := isGiven taken a.name
  { input := ((value inputArgument).bind asFile?).getD ""
    language := (value languageOption).bind asLanguage?
    unit := (value unitOption).bind asCount?
    location := (value locationOption).bind asLocation?
    all := given allSwitch
    json := given jsonSwitch
    interactive := given interactiveSwitch
    config := (value configOption).bind asFile?
    noColour := given noColourSwitch }

/-- The request of the program's words, or the answer to them. -/
def Request.read (words : List String) : Except Answer Request := do
  return Request.ofTaken (← CommandLine.read form version words)

/-- Whether the document is read from standard input. -/
def Request.readsInput (r : Request) : Bool :=
  match Text.parts '/' r.input.toList with
  | ['-'] :: more => more.all fun c => c = [] || c = ['.']
  | _ => false

/-- The event that selects what is asked for. -/
def Request.event? (r : Request) : Option Event :=
  match r.unit, r.location with
  | some id, _ => some (.select id)
  | none, some l => some (.selectAt l)
  | none, none => none

end JsonSelect.Program
