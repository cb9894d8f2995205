import JsonSelect.Language
import JsonSelect.Location
import JsonSelect.Text.Similar

/-! # Arguments of commands

A command takes named options and at most one positional argument. `Form` says what a command takes,
`Argument` what one argument is, `ValueSort` what its value may be. A value that was accepted is kept
as what it denotes. -/

namespace JsonSelect.CommandLine

/-- What the value of an argument has to be. -/
inductive ValueSort where
  | count
  | location
  | language
  | file
deriving DecidableEq, Repr

/-- An accepted value. -/
inductive Given where
  | count (n : Nat)
  | location (l : Location)
  | language (l : Language)
  | file (name : String)
deriving DecidableEq, Repr

/-- Why a text is no value of a sort. -/
inductive ValueFault where
  /-- The text is empty where it must not be. -/
  | missing
  /-- The text denotes nothing of the sort, for the reason `why`. -/
  | invalid (why : String)
  /-- The text is none of the names of the sort. -/
  | unknownName
deriving DecidableEq, Repr

/-- The names that a value has to be one of; none if it need not be a name. -/
def ValueSort.names : ValueSort → List String
  | .language => Language.all.map Language.name
  | _ => []

/-- The value of a sort that a text denotes. -/
def ValueSort.read (sort : ValueSort) (s : String) : Except ValueFault Given :=
  match sort with
  | .count =>
    match Text.count s.toList with
    | .ok n => .ok (.count n)
    | .error e => .error (.invalid e.message)
  | .location =>
    match Location.read? s with
    | some l => .ok (.location l)
    | none => .error (.invalid (Location.invalidMessage s))
  | .language =>
    match Language.ofName? s with
    | some l => .ok (.language l)
    | none => .error (if s.isEmpty then .missing else .unknownName)
  | .file => if s.isEmpty then .error .missing else .ok (.file s)

/-- What an argument does. -/
inductive ArgumentRole where
  /-- Stands without a name in front of it, and must be given if it is required. -/
  | positional (label : String) (sort : ValueSort) (required : Bool)
  /-- Takes a value behind its name. -/
  | option (label : String) (sort : ValueSort)
  /-- Is given or not. -/
  | switch
  /-- Asks for the help text. -/
  | help
  /-- Asks for the version. -/
  | version
deriving DecidableEq, Repr

/-- An argument of a command. -/
structure Argument where
  /-- The name, which for all but positional arguments is typed behind two hyphens. -/
  name : String
  /-- The letter that may be typed behind one hyphen. -/
  letter : Option Char
  role : ArgumentRole
  /-- What the help text says about it. -/
  about : String
  /-- The names of the arguments that must not be given with it. -/
  excludes : List String
deriving DecidableEq, Repr

namespace Argument

/-- Whether an argument stands without a name. -/
def isPositional (a : Argument) : Bool :=
  match a.role with
  | .positional .. => true
  | _ => false

/-- Whether an argument has to be given. -/
def isRequired (a : Argument) : Bool :=
  match a.role with
  | .positional _ _ required => required
  | _ => false

/-- What the value of an argument has to be, if it takes one. -/
def sort? (a : Argument) : Option ValueSort :=
  match a.role with
  | .positional _ sort _ => some sort
  | .option _ sort => some sort
  | _ => none

/-- The names that the value of an argument has to be one of. -/
def names (a : Argument) : List String := (a.sort?.map ValueSort.names).getD []

/-- An argument as it is spoken of. -/
def display (a : Argument) : String :=
  match a.role with
  | .positional label _ true => "<" ++ label ++ ">"
  | .positional label _ false => "[" ++ label ++ "]"
  | .option label _ => "--" ++ a.name ++ " <" ++ label ++ ">"
  | _ => "--" ++ a.name

/-- An argument that is there, as it is spoken of in a usage line. -/
def displayUsed (a : Argument) : String :=
  match a.role with
  | .positional label _ _ => "<" ++ label ++ ">"
  | _ => a.display

/-- The argument that asks for help. -/
def helpOption : Argument := ⟨"help", some 'h', .help, "Print help", []⟩

/-- The argument that asks for the version. -/
def versionOption : Argument := ⟨"version", some 'V', .version, "Print version", []⟩

end Argument

/-- What a command takes. -/
structure Form where
  /-- The words that start the command. -/
  invocation : String
  /-- What the command does. -/
  about : String
  /-- Its arguments, in the order of the help text. -/
  arguments : List Argument
deriving DecidableEq, Repr

namespace Form

/-- The positional argument of a command. -/
def positional? (f : Form) : Option Argument := f.arguments.find? Argument.isPositional

/-- The arguments of a command that are typed behind hyphens. -/
def options (f : Form) : List Argument := f.arguments.filter (!·.isPositional)

/-- The option of a name. -/
def option? (f : Form) (name : String) : Option Argument := f.options.find? (·.name == name)

/-- The option of a letter. -/
def ofLetter? (f : Form) (c : Char) : Option Argument := f.options.find? (·.letter == some c)

end Form

end JsonSelect.CommandLine
