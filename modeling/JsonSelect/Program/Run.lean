import JsonSelect.Config
import JsonSelect.Log.Filter
import JsonSelect.Program.Request
import JsonSelect.Shell.Run

/-! # The program

The program reads its configuration and a document, then shows the document or a selection, or goes on
as a shell. All that it depends on are its words and its `Surroundings`, and all that it does is its
`Outcome`. What goes wrong is told on the error stream and leaves the output empty; a shell keeps what
it has shown.

The surroundings are simpler than those of an operating system. Words, variables and names of files are
texts, whatever is written gets to its stream, and standard input can be read to its end, if not always as
text. Either both streams go to a terminal or none does, and no terminal is too plain for colours. No variable
asks for the places in the program that a trouble came through.

* `opening`: everything up to the loaded document.
* `Opened.show`: what is shown of it.
* `run`: the whole program. -/

namespace JsonSelect.Program

/-- What the program finds around it. -/
structure Surroundings where
  files : Files
  environment : Variables
  /-- The standard input, which can be read to its end. -/
  input : ByteArray
  /-- Whether the output goes to a terminal, on either stream. -/
  terminal : Bool

/-- What the program does. -/
structure Outcome where
  exitCode : Nat
  output : String
  errors : String
deriving DecidableEq, Repr

/-! ### Troubles -/

/-- Why the program fails. -/
inductive Trouble where
  /-- The interactive mode needs standard input for commands. -/
  | inputTaken
  | config (error : ConfigError)
  | unreadableInput
  | unreadableFile (name : String) (fault : TextFault)
  | invalidDocument (name : String)
  | session (error : SessionError)
  | nothingSelected
  | brokenCommands

/-- The wording of a trouble. -/
def Trouble.message : Trouble → String
  | .inputTaken =>
    "interactive mode reads commands from stdin, so the document must come from a file"
  | .config e => e.message
  | .unreadableInput => "failed to read JSON document from stdin"
  | .unreadableFile name _ => s!"failed to read file `{name}`"
  | .invalidDocument name => s!"failed to parse JSON document `{name}`"
  | .session e => e.message
  | .nothingSelected => "nothing was selected"
  | .brokenCommands => Shell.brokenMessage.1

/-- The wordings of what caused a trouble, each the cause of the one before it. -/
def Trouble.causes : Trouble → List String
  | .config e => e.causes
  | .unreadableInput => [Text.notText]
  | .unreadableFile _ fault => [fault.message]
  | .brokenCommands => [Shell.brokenMessage.2]
  | _ => []

/-- The lines of a text, the first one behind `first` and the others behind `others`. -/
def indented (first others : String) (s : String) : String :=
  let lines := (Text.parts '\n' s.toList).map String.ofList
  first ++ ("\n" ++ others).intercalate lines

/-- The causes of a trouble, numbered if there are several. -/
def causesText : List String → String
  | [] => ""
  | [cause] => "\n\nCaused by:\n" ++ indented "    " "    " cause
  | causes =>
    let numbered := causes.zipIdx.map fun (cause, n) =>
      let number := toString n
      "\n" ++ indented ("".pushn ' ' (5 - number.length) ++ number ++ ": ") "       " cause
    "\n\nCaused by:" ++ String.join numbered

/-- What is told of a trouble: its message and its causes, without a trace of where in the program it arose. -/
def Trouble.text (t : Trouble) : String := "Error: " ++ t.message ++ causesText t.causes ++ "\n"

/-! ### Opening the document -/

/-- The variable that forces colours. -/
def forceVariable : String := "CLICOLOR_FORCE"

/-- The variable against colours. -/
def noColourVariable : String := "NO_COLOR"

/-- The variable for the log filter. -/
def logVariable : String := "JSONPICK_LOG"

/-- Whether a variable says something against colours. -/
def refusesColour (v : Variables) : Bool := (v noColourVariable).any (!·.isEmpty)

/-- Whether the output can be coloured, on either stream: if colours are forced, or if it goes to a terminal and
they are not refused. -/
def paints (s : Surroundings) : Bool :=
  (s.environment forceVariable).any (· != "0") || (s.terminal && !refusesColour s.environment)

/-- The text of the document that is asked for. -/
def inputText (s : Surroundings) (r : Request) : Except Trouble String :=
  if r.readsInput then
    match Text.ofBytes s.input with
    | .ok text => .ok text
    | .error _ => .error .unreadableInput
  else
    match s.files.text r.input with
    | .ok text => .ok text
    | .error fault => .error (.unreadableFile r.input fault)

/-- The loaded document, before anything is shown of it. -/
structure Opened where
  session : Session
  colour : Bool
deriving Repr

/-- Everything up to the loaded document. -/
def opening (s : Surroundings) (r : Request) : Except Trouble Opened := do
  if r.interactive && r.readsInput then throw .inputTaken
  match Config.load s.files s.environment r.config with
  | .error e => throw (.config e)
  | .ok c =>
    let text ← inputText s r
    let session := Session.start c.receiver (r.language.getD c.language)
    return ⟨session.advance (.edit text), c.colour && !r.noColour && paints s⟩

/-- What is wrong with the document, as it is shown. -/
def Opened.report (o : Opened) (name : String) : String :=
  match o.session.loaded with
  | .invalid source errors => Diagnostic.text o.colour name source errors
  | _ => ""

/-- The expressions that are asked for. -/
def wantedSnippets (r : Request) (s : Session) : List Snippet :=
  if r.all then s.snippets else Shell.snippetList s

/-- A selection with its expressions, in the form that is asked for. -/
def selectionOutput (r : Request) (colour : Bool) (s : Session) (sel : Selection) : String :=
  if r.json then (sel.report (wantedSnippets r s)).pretty ++ "\n"
  else sel.text (wantedSnippets r s) colour

/-- What is shown of the document. -/
def Opened.show (o : Opened) (r : Request) : Except Trouble String :=
  match o.session.loaded with
  | .invalid _ _ => .error (.invalidDocument r.input)
  | _ =>
    match r.event? with
    | none => .ok ((o.session.render? o.colour).getD "")
    | some e =>
      match o.session.apply e with
      | .error e => .error (.session e)
      | .ok s =>
        match s.selection with
        | none => .error .nothingSelected
        | some sel => .ok (selectionOutput r o.colour s sel)

/-! ### Log records -/

/-- What is told of a file that cannot be read. -/
def unreadableRecord (name : String) : Log.Record :=
  ⟨.error, .program, some "failed to read input", [("path", Text.inspect name)]⟩

/-- What is told up to the loaded document. -/
def openingRecords (s : Surroundings) (r : Request) : List Log.Record :=
  let asked : Log.Record := ⟨.debug, .program, none, [("input", Text.inspect r.input)]⟩
  let loading :=
    if r.interactive && r.readsInput then []
    else
      match Config.load s.files s.environment r.config with
      | .error _ => []
      | .ok c =>
        let language := r.language.getD c.language
        match inputText s r with
        | .error (.unreadableFile name _) => [c.record, unreadableRecord name]
        | .error _ => [c.record]
        | .ok text =>
          c.record :: Log.languageRecords language ++
            Log.eventRecords (Session.start c.receiver language) (.edit text)
  asked :: loading

/-- What is told while the document is shown. -/
def Opened.showRecords (o : Opened) (r : Request) : List Log.Record :=
  match o.session.loaded with
  | .invalid _ _ => []
  | _ =>
    match r.event? with
    | none => Log.layoutRecords o.session
    | some e =>
      let written := match o.session.apply e with
        | .error _ => []
        | .ok s => Log.snippetRecords s (wantedSnippets r s)
      Log.eventRecords o.session e ++ written

/-! ### The whole program -/

/-- The text of log records, as far as they are wanted. -/
def logText (v : Variables) (records : List Log.Record) : String :=
  Log.text (.ofVariable (v logVariable)) (!refusesColour v) records

/-- The shell of an opened document. -/
def Opened.shell (o : Opened) (r : Request) : Shell := ⟨o.session, r.input⟩

/-- Shows an opened document. `told` is what the error stream has got before. -/
def Opened.outcome (o : Opened) (s : Surroundings) (r : Request) (told : String) : Outcome :=
  let told := told ++ logText s.environment (o.showRecords r)
  match o.show r with
  | .ok output => ⟨0, output, told⟩
  | .error t => ⟨1, "", told ++ t.text⟩

/-- Runs a shell over an opened document. `told` is what the error stream has got before. -/
def Opened.shellOutcome (o : Opened) (s : Surroundings) (r : Request) (told : String) : Outcome :=
  let run := (o.shell r).run s.files o.colour s.input
  let told := told ++ logText s.environment ((o.shell r).history s.files (Shell.inputLines s.input))
  if run.broken then ⟨1, run.output, told ++ Trouble.brokenCommands.text⟩
  else ⟨0, run.output, told⟩

/-- Carries out a request. -/
def perform (s : Surroundings) (r : Request) : Outcome :=
  let told := logText s.environment (openingRecords s r)
  match opening s r with
  | .error t => ⟨1, "", told ++ t.text⟩
  | .ok o =>
    let told := told ++ o.report r.input
    if r.interactive then o.shellOutcome s r told else o.outcome s r told

/-- Whether answers to the words themselves are painted. -/
def paintsAnswers (v : Variables) (terminal : Bool) : Bool :=
  !refusesColour v && (terminal || (v forceVariable).any (!·.isEmpty))

/-- What the program says instead of carrying out a request. -/
def reply (painted : Bool) (a : CommandLine.Answer) : Outcome :=
  let told := a.phrase.write painted
  match a with
  | .info _ => ⟨0, told, ""⟩
  | .refusal _ => ⟨2, "", told⟩

/-- The whole program. -/
def run (s : Surroundings) (words : List String) : Outcome :=
  match Request.read words with
  | .ok r => perform s r
  | .error a => reply (paintsAnswers s.environment s.terminal) a

end JsonSelect.Program
