import JsonSelect.CommandLine.Refusal

/-! # Reading the words of a command

The words of a command are read from the left against its form. The value of an option may follow as
a word of its own, so an argument is *open* until the next word settles it; what is wrong with an open
argument is told when it is settled, unless the next word is unknown, which is told first. Behind two
hyphens on their own every word is positional. In the end the arguments are checked for exclusions,
then for what is missing.

* `settle`: closes the open argument.
* `readWord`: reads one word.
* `read`: the arguments that words give, or the answer to the words. -/

namespace JsonSelect.CommandLine

/-- An argument with the value it was given; switches have none. -/
structure Taken where
  argument : Argument
  value : Option Given
deriving DecidableEq, Repr

/-- An argument that may still get its value. -/
structure Open where
  argument : Argument
  word : Option String
deriving DecidableEq, Repr

/-- What has been read. -/
structure Progress where
  taken : List Taken
  pending : Option Open
  /-- Whether the remaining words are all positional. -/
  literal : Bool
deriving DecidableEq, Repr

namespace Progress

/-- Nothing has been read. -/
def start : Progress := ⟨[], none, false⟩

/-- The arguments that were taken. -/
def arguments (p : Progress) : List Argument := p.taken.map (·.argument)

/-- Whether an argument was taken. -/
def has (p : Progress) (a : Argument) : Bool := p.arguments.contains a

/-- One more argument. -/
def take (p : Progress) (a : Argument) (value : Option Given) : Progress :=
  { p with taken := p.taken ++ [⟨a, value⟩] }

/-- The argument that waits for its value as the next word. -/
def expecting? (p : Progress) : Option Argument :=
  match p.pending with
  | some ⟨a, none⟩ => if p.literal then none else some a
  | _ => none

end Progress

/-- A refusal without names, tips and usage. -/
def plainRefusal (c : Complaint) : Answer := .refusal ⟨c, [], [], none⟩

/-- The answer to a value that an argument cannot take. -/
def refuseValue (a : Argument) (word : String) : ValueFault → Answer
  | .missing => .refusal ⟨.missingValue a.display, a.names, [], none⟩
  | .invalid why => plainRefusal (.invalidValue word a.display why)
  | .unknownName =>
    let tips := (Text.mostSimilar? word a.names).toList.map fun w => Tip.similar "value" [w]
    .refusal ⟨.unknownName word a.display, a.names, tips, none⟩

/-- The answer to an argument that is given twice. -/
def refuseRepeated (f : Form) (a : Argument) : Answer :=
  .refusal ⟨.repeated a.display, [], [], some (f.usage [])⟩

/-- The version line of a command. -/
def versionText (f : Form) (version : String) : Text.Phrase :=
  .plain (f.invocation ++ " " ++ version ++ "\n")

/-- Takes an argument with the word that is its value. The progress says what was taken, also where
the argument is refused. -/
def accept (f : Form) (version : String) (p : Progress) (a : Argument) (word : Option String) :
    Progress × Option Answer :=
  match a.role, word with
  | .help, _ => (p, some (.info f.helpText))
  | .version, _ => (p, some (.info (versionText f version)))
  | .switch, _ =>
    if p.has a then (p, some (refuseRepeated f a)) else (p.take a none, none)
  | .positional .., none => (p, some (refuseValue a "" .missing))
  | .option .., none => (p, some (refuseValue a "" .missing))
  | .positional _ sort _, some w => acceptValue sort w
  | .option _ sort, some w =>
    if p.has a then
      ({ p with taken := p.taken.filter (·.argument != a) }, some (refuseRepeated f a))
    else acceptValue sort w
where
  /-- Takes the argument with a value. -/
  acceptValue (sort : ValueSort) (w : String) : Progress × Option Answer :=
    match sort.read w with
    | .ok v => (p.take a (some v), none)
    | .error e => (p.take a none, some (refuseValue a w e))

/-- Closes the open argument. -/
def settle (f : Form) (version : String) (p : Progress) : Progress × Option Answer :=
  match p.pending with
  | none => (p, none)
  | some o => accept f version { p with pending := none } o.argument o.word

/-- Closes the open argument, then goes on. -/
def settled (f : Form) (version : String) (p : Progress) (k : Progress → Except Answer Progress) :
    Except Answer Progress :=
  match settle f version p with
  | (p', none) => k p'
  | (_, some answer) => .error answer

/-- Takes an argument with the word that is its value, after closing the open one. -/
def acceptNow (f : Form) (version : String) (p : Progress) (a : Argument) (word : Option String) :
    Except Answer Progress :=
  settled f version p fun p =>
    match accept f version p a word with
    | (p', none) => .ok p'
    | (_, some answer) => .error answer

/-- Leaves an argument open for its value, after closing the one that was open before. -/
def openFor (f : Form) (version : String) (p : Progress) (a : Argument) (word : Option String) :
    Except Answer Progress :=
  settled f version p fun p => .ok { p with pending := some ⟨a, word⟩ }

/-- The tip to pass a word as a value, for commands that take one. -/
def asValueTips (f : Form) (word : String) : List Tip :=
  if f.positional?.isSome then [.asValue word] else []

/-- The answer to an unknown option `--name`. -/
def refuseOption (f : Form) (version : String) (p : Progress) (name : String) : Answer :=
  let used := (settle f version p).1.arguments
  let word := "--" ++ name
  match Text.mostSimilar? name (f.options.map (·.name)) with
  | some similar =>
    let tips := [Tip.similar "argument" ["--" ++ similar]]
    .refusal ⟨.unknownArgument word, [], tips, some (f.usage (used ++ (f.option? similar).toList))⟩
  | none => .refusal ⟨.unknownArgument word, [], asValueTips f word, some (f.usage used)⟩

/-- The answer to the value `v` of an argument that takes none. -/
def refuseUnneeded (f : Form) (p : Progress) (a : Argument) (v : String) : Answer :=
  let usage := if p.taken.isEmpty then f.usage [a] else f.choiceUsage [a]
  .refusal ⟨.unneededValue v a.display, [], [], some usage⟩

/-- Reads `--name` or `--name=value`. -/
def readOption (f : Form) (version : String) (p : Progress) (word : List Char) :
    Except Answer Progress :=
  let name := String.ofList (word.takeWhile (· ≠ '='))
  let value :=
    if '=' ∈ word then some (String.ofList ((word.dropWhile (· ≠ '=')).drop 1)) else none
  match f.option? name with
  | none => .error (refuseOption f version p name)
  | some a =>
    match a.sort?, value with
    | some _, some v => acceptNow f version p a (some v)
    | some _, none => openFor f version p a none
    | none, some v => .error (refuseUnneeded f p a v)
    | none, none => acceptNow f version p a none

/-- Reads the letters behind one hyphen. What follows the letter of an option with a value is that
value, with or without an equals sign in front. -/
def readLetters (f : Form) (version : String) (p : Progress) : List Char → Except Answer Progress
  | [] => .ok p
  | c :: cs =>
    match f.ofLetter? c with
    | none =>
      let word := String.ofList ['-', c]
      .error (.refusal ⟨.unknownArgument word, [], asValueTips f word, some (f.usage [])⟩)
    | some a =>
      match a.sort? with
      | none => do
        let p ← acceptNow f version p a none
        readLetters f version p cs
      | some _ =>
        match cs with
        | [] => openFor f version p a none
        | '=' :: value => acceptNow f version p a (some (String.ofList value))
        | value => acceptNow f version p a (some (String.ofList value))

/-- Whether the positional argument of a command is taken or open. -/
def positionalDone (p : Progress) (a : Argument) : Bool :=
  p.has a || p.pending.any (·.argument == a)

/-- Reads a word that is no option. -/
def readPlain (f : Form) (version : String) (p : Progress) (word : String) :
    Except Answer Progress :=
  match p.expecting? with
  | some a => .ok { p with pending := some ⟨a, some word⟩ }
  | none =>
    let refused := Answer.refusal ⟨.unknownArgument word, [], [], some (f.usage [])⟩
    match f.positional? with
    | none => .error refused
    | some a => if positionalDone p a then .error refused else openFor f version p a (some word)

/-- Reads one word. -/
def readWord (f : Form) (version : String) (p : Progress) (word : String) :
    Except Answer Progress :=
  if p.literal then readPlain f version p word
  else
    match word.toList with
    | ['-', '-'] => .ok { p with literal := true }
    | '-' :: '-' :: cs => readOption f version p cs
    | '-' :: c :: cs => readLetters f version p (c :: cs)
    | _ => readPlain f version p word

/-- Checks that no argument is given with one that it excludes or that excludes it. -/
def checkConflicts (f : Form) (used : List Argument) : Except Answer Unit :=
  let conflicts (a : Argument) := used.filter fun b =>
    a.excludes.contains b.name || b.excludes.contains a.name
  match used.find? fun a => !(conflicts a).isEmpty with
  | none => .ok ()
  | some a =>
    let others := conflicts a
    let usage := f.usage (used.filter (!others.contains ·))
    .error (.refusal ⟨.conflict a.display (others.map Argument.display), [], [], some usage⟩)

/-- Checks that every required argument is given. -/
def checkRequired (f : Form) (used : List Argument) : Except Answer Unit :=
  let missing := f.arguments.filter fun a => a.isRequired && !used.contains a
  if missing.isEmpty then .ok ()
  else
    let usage := f.usage (used ++ missing)
    .error (.refusal
      ⟨.missingArguments (missing.map Argument.display), [], [], some usage⟩)

/-- The arguments that words give to a command, or the answer to the words. -/
def read (f : Form) (version : String) (words : List String) : Except Answer (List Taken) := do
  let p ← words.foldlM (readWord f version) Progress.start
  let p ← settled f version p .ok
  checkConflicts f p.arguments
  checkRequired f p.arguments
  return p.taken

/-- The value of the argument of a name. -/
def valueOf? (taken : List Taken) (name : String) : Option Given :=
  (taken.find? (·.argument.name == name)).bind (·.value)

/-- Whether the argument of a name is given. -/
def isGiven (taken : List Taken) (name : String) : Bool := taken.any (·.argument.name == name)

end JsonSelect.CommandLine
