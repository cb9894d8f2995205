import JsonSelect.Diagnostic
import JsonSelect.Log.History
import JsonSelect.Report
import JsonSelect.Shell.Line

/-! # The interactive mode

A shell is a session together with the name of the loaded document. It reads a line after each prompt
and carries out its command, until a command ends it or the input ends. Only commands that denote an
event change the session, and loading a file changes the name along with it.

* `Command.event?`: the event that a command denotes.
* `Shell.perform`: the shell after a command, and what the command shows.
* `Shell.run`: all lines of an input.
* `Shell.history`: the log records on the way. -/

namespace JsonSelect

open Shell (Command readLine)

/-- The event that a command denotes: loading a file that can be read is replacing the text. -/
def Shell.Command.event? (files : Files) : Command → Option Event
  | .pick id => some (.select id)
  | .at l => some (.selectAt l)
  | .hover id => some (.hover id)
  | .language l => some (.language l)
  | .load name =>
    match files.text name with
    | .ok text => some (.edit text)
    | .error _ => none
  | .show | .languages | .all | .quit => none

/-- A session and the name that diagnostics call its document by. -/
structure Shell where
  session : Session
  name : String
deriving Repr

namespace Shell

/-- The text in front of every line. -/
def prompt : String := "jsonpick> "

/-- The document of a shell, or what is wrong with its text. -/
def documentText (s : Shell) (colour : Bool) : String :=
  match s.session.loaded with
  | .nothing => "no document loaded\n"
  | .invalid source errors => Diagnostic.text colour s.name source errors
  | .document _ => (s.session.render? colour).getD ""

/-- The selection of a session with some expressions for it. -/
def selectionText (s : Session) (snippets : List Snippet) (colour : Bool) : String :=
  match s.selection with
  | none => "nothing selected\n"
  | some sel => sel.text snippets colour

/-- The languages, with a mark at the target language. -/
def languagesText (s : Session) : String :=
  String.join <| Language.all.map fun l =>
    let mark := if l = s.language then "*" else " "
    s!"{mark} {padded 10 l.name}  {padded 10 l.displayName}  {l.interface}\n"

/-- The expression for the selection of a session in its language. -/
def snippetList (s : Session) : List Snippet := s.snippet?.toList

/-- What a shell shows after an event. -/
def answer (s : Shell) (colour : Bool) : Event → String
  | .edit _ | .hover _ => s.documentText colour
  | .select _ | .selectAt _ => selectionText s.session (snippetList s.session) colour
  | .language l =>
    if s.session.selection.isSome then selectionText s.session (snippetList s.session) colour
    else s!"target language: {l.displayName}\n"

/-- A message about something that went wrong. -/
def failure (message : String) : String := s!"error: {message}\n"

/-- The shell after an event, and what it shows. -/
def advance (s : Shell) (colour : Bool) (e : Event) : Shell × String :=
  match s.session.apply e with
  | .ok next =>
    let s' := { s with session := next }
    (s', s'.answer colour e)
  | .error error => (s, failure error.message)

/-- What is said of a file that cannot be read. -/
def unreadable (name : String) (fault : TextFault) : String :=
  failure s!"failed to read `{name}`: {fault.message}"

/-- The shell after a command, unless the command ends it, and what the command shows. -/
def perform (files : Files) (colour : Bool) (s : Shell) : Command → Option Shell × String
  | .quit => (none, "")
  | .show => (some s, s.documentText colour)
  | .languages => (some s, languagesText s.session)
  | .all => (some s, selectionText s.session s.session.snippets colour)
  | .load name =>
    match files.text name with
    | .error fault => (some s, unreadable name fault)
    | .ok text => changed ({ s with name := name }.advance colour (.edit text))
  | .pick id => changed (s.advance colour (.select id))
  | .at l => changed (s.advance colour (.selectAt l))
  | .hover id => changed (s.advance colour (.hover id))
  | .language l => changed (s.advance colour (.language l))
where
  /-- The shell goes on. -/
  changed (next : Shell × String) : Option Shell × String := (some next.1, next.2)

/-- The shell after a line, unless the line ends it, and what the line shows. -/
def turn (files : Files) (colour : Bool) (s : Shell) (line : String) : Option Shell × String :=
  match readLine line with
  | none => (some s, "")
  | some (.error reply) => (some s, reply)
  | some (.ok c) => s.perform files colour c

/-! ### Runs -/

/-- A line without the carriage return at its end. -/
def withoutReturn (line : List UInt8) : List UInt8 :=
  if line.getLast? = some 13 then line.dropLast else line

/-- The lines of an input. Where bytes encode no text there is no line. -/
def inputLines (input : ByteArray) : List (Option String) :=
  let parts := Text.parts 10 input.data.toList
  let ended := parts.dropLast.map withoutReturn
  let last := parts.getLast?.toList.filter (!·.isEmpty)
  (ended ++ last).map fun line => String.fromUTF8? ⟨line.toArray⟩

/-- How a run ended. -/
structure Run where
  /-- The shell in the end. -/
  last : Shell
  /-- All that was shown. -/
  output : String
  /-- Whether a line could not be read. -/
  broken : Bool
deriving Repr

/-- A run with more shown before it. -/
def Run.after (shown : String) (r : Run) : Run := { r with output := shown ++ r.output }

/-- The run of a shell over some lines. -/
def runLines (files : Files) (colour : Bool) (s : Shell) : List (Option String) → Run
  | [] => ⟨s, prompt ++ "\n", false⟩
  | none :: _ => ⟨s, prompt, true⟩
  | some line :: lines =>
    match s.turn files colour line with
    | (none, shown) => ⟨s, prompt ++ shown, false⟩
    | (some s', shown) => (runLines files colour s' lines).after (prompt ++ shown)

/-- The run of a shell over an input. -/
def run (files : Files) (colour : Bool) (s : Shell) (input : ByteArray) : Run :=
  s.runLines files colour (inputLines input)

/-- What is said of a run that ended because a line could not be read: what was tried, and why it
failed. -/
def brokenMessage : String × String := ("failed to read command", Text.notText)

/-! ### Log records -/

/-- The expressions that are written for an event. -/
def eventSnippets (s : Session) : Event → List Snippet
  | .edit _ | .hover _ => []
  | .select _ | .selectAt _ | .language _ => snippetList s

/-- What is told when a shell advances by an event: the event, and what is shown after it. -/
def advanceRecords (s : Session) (e : Event) : List Log.Record :=
  let shown := match s.apply e with
    | .error _ => []
    | .ok next =>
      match e with
      | .edit _ | .hover _ => Log.layoutRecords next
      | _ => Log.snippetRecords next (eventSnippets next e)
  Log.eventRecords s e ++ shown

/-- What is told when a command is carried out. -/
def commandRecords (files : Files) (s : Session) (c : Command) : List Log.Record :=
  let effect := match c.event? files, c with
    | some e, _ => advanceRecords s e
    | none, .show => Log.layoutRecords s
    | none, .all => Log.snippetRecords s s.snippets
    | none, _ => []
  ⟨.debug, .shell, none, [("command", c.logText)]⟩ :: effect

/-- What is told on the way over some lines. -/
def history (files : Files) (s : Shell) : List (Option String) → List Log.Record
  | [] | none :: _ => []
  | some line :: lines =>
    let told := match readLine line with
      | some (.ok c) => commandRecords files s.session c
      | _ => []
    match (s.turn files false line).1 with
    | none => told
    | some s' => told ++ history files s' lines

end Shell

end JsonSelect
