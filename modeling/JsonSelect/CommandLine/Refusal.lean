import JsonSelect.CommandLine.Usage

/-! # Refused words

Why the words of a command are refused, and how that is told: one sentence, perhaps names to choose
from, tips and a usage line, and where to find help. -/

namespace JsonSelect.CommandLine

open Text (Phrase)
open Text.Phrase (plain literal alarm valid invalid quoted listed)

/-- Advice that goes with a refusal. -/
inductive Tip where
  /-- A word like the one refused would do. -/
  | similar (what : String) (words : List String)
  /-- The word can be passed as a value. -/
  | asValue (word : String)
  /-- The word would do behind a command. -/
  | behindCommand (command word : String)
  /-- The word is a command if the hyphens before it are left out. -/
  | withoutHyphens (word : String)
deriving DecidableEq, Repr

/-- A word that would be right, between apostrophes. -/
def right (word : String) : Phrase := quoted (valid word)

/-- A word that is wrong, between apostrophes. -/
def wrong (word : String) : Phrase := quoted (invalid word)

/-- The wording of a tip. -/
def Tip.message : Tip → Phrase
  | .similar what [word] => plain s!"a similar {what} exists: " ++ right word
  | .similar what words => plain s!"some similar {what}s exist: " ++ listed (words.map right)
  | .asValue word =>
    plain "to pass " ++ wrong word ++ plain " as a value, use " ++ right ("-- " ++ word)
  | .behindCommand command word => right (command ++ " " ++ word) ++ plain " exists"
  | .withoutHyphens word =>
    plain "subcommand " ++ right word ++ plain " exists; to use it, remove the " ++ wrong "--" ++
      plain " before it"

/-- What is wrong with the words of a command. -/
inductive Complaint where
  | unknownArgument (word : String)
  | unknownCommand (word : String)
  /-- A switch got the value `value`. -/
  | unneededValue (value argument : String)
  | repeated (argument : String)
  /-- An argument was given with others that it excludes. -/
  | conflict (argument : String) (others : List String)
  | missingArguments (arguments : List String)
  | missingValue (argument : String)
  | invalidValue (value argument why : String)
  | unknownName (value argument : String)
deriving DecidableEq, Repr

/-- Phrases on lines of their own. -/
def onLines (ps : List Phrase) : Phrase := Phrase.join (ps.map (plain "\n  " ++ ·))

/-- The beginning of what is said about a value that an argument cannot take. -/
def unfitValue (value argument : String) : Phrase :=
  plain "invalid value " ++ wrong value ++ plain " for " ++ quoted (literal argument)

/-- The wording of a complaint. -/
def Complaint.message : Complaint → Phrase
  | .unknownArgument word => plain "unexpected argument " ++ wrong word ++ plain " found"
  | .unknownCommand word => plain "unrecognized subcommand " ++ wrong word
  | .unneededValue value argument =>
    plain "unexpected value " ++ wrong value ++ plain " for " ++ quoted (literal argument) ++
      plain " found; no more were expected"
  | .repeated argument =>
    plain "the argument " ++ wrong argument ++ plain " cannot be used multiple times"
  | .conflict argument [other] =>
    plain "the argument " ++ wrong argument ++ plain " cannot be used with " ++ wrong other
  | .conflict argument others =>
    plain "the argument " ++ wrong argument ++ plain " cannot be used with:" ++
      onLines (others.map invalid)
  | .missingArguments arguments =>
    plain "the following required arguments were not provided:" ++
      onLines (arguments.map valid)
  | .missingValue argument =>
    plain "a value is required for " ++ wrong argument ++ plain " but none was supplied"
  | .invalidValue value argument why => unfitValue value argument ++ plain (": " ++ why)
  | .unknownName value argument => unfitValue value argument

/-- A complaint with everything that is told with it. -/
structure Refusal where
  complaint : Complaint
  /-- The names that the value had to be one of. -/
  names : List String
  tips : List Tip
  usage : Option Phrase
deriving DecidableEq, Repr

/-- What is told of a refusal. `help` is what to type for help, if there is help. -/
def Refusal.phrase (r : Refusal) (help : Option String) : Phrase :=
  let names := if r.names.isEmpty then Phrase.none else onLines [possibleNames valid r.names]
  let tips := onLines (r.tips.map fun t => valid "tip:" ++ plain " " ++ t.message)
  let hint := help.elim (plain "\n") fun word =>
    plain "\n\nFor more information, try " ++ quoted (literal word) ++ plain ".\n"
  alarm "error:" ++ plain " " ++ r.complaint.message ++ names ++
    (if r.tips.isEmpty then Phrase.none else plain "\n" ++ tips) ++
    r.usage.elim Phrase.none (plain "\n\n" ++ usageLine ·) ++ hint

/-- What to type behind a command for its help. -/
def helpWord : String := "--" ++ Argument.helpOption.name

/-- The words of a command are answered with a text instead of being carried out. -/
inductive Answer where
  /-- The help text or the version, which were asked for. -/
  | info (phrase : Phrase)
  | refusal (refusal : Refusal)
deriving DecidableEq, Repr

/-- What is told in an answer. -/
def Answer.phrase : Answer → Phrase
  | .info p => p
  | .refusal r => r.phrase (some helpWord)

end JsonSelect.CommandLine
