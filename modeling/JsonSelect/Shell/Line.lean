import JsonSelect.Files
import JsonSelect.Shell.Command

/-! # Command lines

A line holds words, of which the first chooses the command. Of a word that looks like a path only the
file name without its extension counts there; where a path has none, the word after it names the
program and the command comes next. A line without words asks for nothing, and a line that is no
command is answered with a text: a help text that it asked for, or why it is refused. -/

namespace JsonSelect.Shell

open CommandLine
open Text (Phrase)
open Text.Phrase (plain literal)

/-- What stands for the program in usage lines. -/
structure Naming where
  /-- In front of where a command would stand. -/
  alone : String
  /-- In front of the name of a command. -/
  withCommand : String
deriving DecidableEq, Repr

namespace Naming

/-- Nothing stands for the program, since a line begins with the command itself. -/
def empty : Naming := ⟨"", ""⟩

/-- The name that a line gives to the program. -/
def given (name : String) : Naming := ⟨name, name⟩

/-- The program goes by its own name, but not in front of commands. -/
def default : Naming := ⟨"jsonpick", ""⟩

end Naming

/-- The word for the help of commands. -/
def helpWord : String := "help"

/-- What `help` does. -/
def helpAbout : String := "Print this message or the help of the given subcommand(s)"

/-- Every word that a command line may start with. -/
def knownWords : List String :=
  Verb.list.flatMap (fun v => v.name :: v.aliases) ++ [helpWord]

/-- The usage of a line. -/
def lineUsage (n : Naming) : Phrase := Phrase.words [literal n.alone, plain "<COMMAND>"]

/-- The list of the commands. -/
def commandList (n : Naming) : Phrase :=
  let entries := Verb.list.map (fun v => (v.name, v.about)) ++ [(helpWord, helpAbout)]
  usageLine (lineUsage n) ++ plain "\n\n" ++
    columns "Commands" (entries.map fun e => (literal e.1, plain e.2))

/-- The usage of `help`. -/
def helpUsage (n : Naming) : Phrase :=
  Phrase.words [literal (unwords [n.withCommand, helpWord]), plain "[COMMAND]..."]

/-- The help text of `help`. -/
def helpOfHelp (n : Naming) : Phrase :=
  plain (helpAbout ++ "\n\n") ++ usageLine (helpUsage n) ++ plain "\n\n" ++
    columns "Arguments" [(plain "[COMMAND]...", plain "Print help for the subcommand(s)")]

/-- Refuses a line as a whole. -/
def refuseLine (n : Naming) (complaint : Complaint) (tips : List Tip) : Phrase :=
  (Refusal.mk complaint [] tips (some (lineUsage n))).phrase (some helpWord)

/-- Refuses a first word that is no command. -/
def refuseWord (n : Naming) (word : String) : Phrase :=
  let similar := Text.similarWords word knownWords
  let tips := if similar.isEmpty then [] else [Tip.similar "subcommand" similar]
  refuseLine n (.unknownCommand word) tips

/-- Refuses an option in place of a command. If it is like the one for help, and a command follows in
`later`, the option would do behind that command. -/
def refuseOption (n : Naming) (name : String) (later : List String) : Phrase :=
  let commands := later.filter fun w => Verb.list.any fun v => v.name == w
  let tips :=
    if (Text.mostSimilar? name [Argument.helpOption.name]).isSome then
      commands.head?.toList.map fun w => Tip.behindCommand w CommandLine.helpWord
    else []
  refuseLine n (.unknownArgument ("--" ++ name)) tips

/-- The answer to `help` with words behind it. -/
def helpText (n : Naming) : List String → Phrase
  | [] => commandList n
  | word :: words =>
    if word = helpWord then
      match words with
      | [] => helpOfHelp n
      | extra :: _ => (Refusal.mk (.unknownCommand extra) [] [] (some (helpUsage n))).phrase none
    else
      match Verb.ofWord? word, words with
      | none, _ => refuseLine n (.unknownCommand word) []
      | some v, [] => (v.form n.withCommand).helpText
      | some v, extra :: _ =>
        let usage := (v.form n.withCommand).fullUsage
        (Answer.refusal ⟨.unknownCommand extra, [], [], some usage⟩).phrase

/-- The command of a verb with the words behind it, or the answer to them. -/
def readVerb (n : Naming) (v : Verb) (words : List String) : Except Phrase Command :=
  match CommandLine.read (v.form n.withCommand) "" words with
  | .ok taken => (Command.ofVerb? v (valueOf? taken Verb.valueName)).elim (.error Phrase.none) .ok
  | .error a => .error a.phrase

/-- The command of some words, or the answer to them. Behind two hyphens on their own, `literal`, no
word is a command. -/
def readWords (n : Naming) (literal : Bool) : List String → Except Phrase Command
  | [] => .error (commandList n)
  | word :: words =>
    if literal then
      if knownWords.contains word then
        .error (refuseLine n (.unknownArgument word) [.withoutHyphens word])
      else .error (refuseWord n word)
    else if word = helpWord then .error (helpText n words)
    else
      match Verb.ofWord? word with
      | some v => readVerb n v words
      | none =>
        match word.toList with
        | ['-', '-'] => readWords n true words
        | '-' :: '-' :: cs =>
          .error (refuseOption n (String.ofList (cs.takeWhile (· ≠ '='))) words)
        | '-' :: c :: _ =>
          .error (refuseLine n (.unknownArgument (String.ofList ['-', c])) [])
        | _ => .error (refuseWord n word)

/-- What stands for the program in which words are read, and the words from the command on. -/
def splitProgram : List String → Naming × List String
  | [] => (.default, [])
  | word :: words =>
    match fileStem? word with
    | some stem => (.empty, stem :: words)
    | none =>
      match words with
      | [] => (.default, [])
      | name :: words => ((fileName? name).elim .default .given, words)

/-- The command of a line, or the answer to it. A blank line has neither. -/
def readLine (line : String) : Option (Except String Command) :=
  let words := (Text.words line.toList).map String.ofList
  if words.isEmpty then none
  else
    let (naming, words) := splitProgram words
    some ((readWords naming false words).mapError Phrase.text)

/-- The file that a line asks to read. -/
def fileOf? (line : String) : Option String :=
  match readLine line with
  | some (.ok (.load name)) => some name
  | _ => none

end JsonSelect.Shell
