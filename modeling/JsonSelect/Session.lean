import JsonSelect.Access
import JsonSelect.Location
import JsonSelect.Rendering

/-! # Sessions

A session is the loaded document, what is selected and hovered in it, and the target language. An
event gives the next session, or an error that leaves the session as it was. Loading a text drops the
selection and the hover, which belong to the text before it. -/

namespace JsonSelect

/-- What a session has loaded. -/
inductive Loaded where
  | nothing
  | document (document : Document)
  /-- A text that is no document. -/
  | invalid (source : String) (errors : List ParseError)
deriving Repr

/-- The outcome of loading a text. -/
def Loaded.ofText (source : String) : Loaded :=
  match Document.parse source with
  | .ok d => .document d
  | .error errors => .invalid source errors

/-- The document that is loaded, if a document is. -/
def Loaded.document? : Loaded → Option Document
  | .document d => some d
  | _ => none

/-- What can happen to a session. -/
inductive Event where
  /-- The text is replaced. -/
  | edit (source : String)
  /-- The unit with a number is selected. -/
  | select (id : Nat)
  /-- The unit at a location is selected. -/
  | selectAt (location : Location)
  /-- The node of a unit is hovered, or none is any more. -/
  | hover (id : Option Nat)
  /-- The target language is changed. -/
  | language (language : Language)
deriving DecidableEq, Repr

/-- Why an event does not apply. -/
inductive SessionError where
  | noDocument
  | unknownUnit (id : Nat)
  /-- There is no unit at the location. -/
  | nothingAt (location : Location)
  | outOfBounds (location : Location)
deriving DecidableEq, Repr

/-- The wording of a session error. -/
def SessionError.message : SessionError → String
  | .noDocument => "no valid document is loaded"
  | .unknownUnit id => s!"there is no unit #{id} in the document"
  | .nothingAt l => s!"nothing to select at {l.text}"
  | .outOfBounds l => s!"position {l.text} is outside the document"

/-- An access expression with what is shown beside it. -/
structure Snippet where
  language : Language
  code : String
deriving DecidableEq, Repr

/-- The expression for a path in a language. -/
def Language.snippet (l : Language) (receiver : String) (path : Path) : Snippet :=
  ⟨l, l.expression receiver path⟩

/-- The state of a session. -/
structure Session where
  /-- The variable that expressions start from. -/
  receiver : String
  language : Language
  loaded : Loaded
  selection : Option Selection
  /-- The path of the hovered node. -/
  hover : Option Path
deriving Repr

namespace Session

/-- The session in which nothing has happened. -/
def start (receiver : String) (language : Language) : Session :=
  ⟨receiver, language, .nothing, none, none⟩

/-- The document of a session. -/
def document? (s : Session) : Option Document := s.loaded.document?

/-- The tree of the document of a session. -/
def tree? (s : Session) : Option Tree := s.document?.map (·.root.tree)

/-- The document of a session, where there has to be one. -/
def document (s : Session) : Except SessionError Document :=
  s.document?.elim (.error .noDocument) .ok

/-- The unit with a number in the document of a session. -/
def unit (s : Session) (id : Nat) : Except SessionError TreeUnit := do
  let d ← s.document
  (d.root.tree.unit? id).elim (.error (.unknownUnit id)) .ok

/-- The unit at a location in the document of a session. -/
def unitAt (s : Session) (l : Location) : Except SessionError TreeUnit := do
  let d ← s.document
  let offset ← (d.offsetOf? l).elim (.error (.outOfBounds l)) .ok
  (d.root.tree.unitAt? offset).elim (.error (.nothingAt l)) .ok

/-- The session after an event. -/
def apply (s : Session) : Event → Except SessionError Session
  | .edit source =>
    .ok { s with loaded := .ofText source, selection := none, hover := none }
  | .select id => do
    let u ← s.unit id
    return { s with selection := some u.select }
  | .selectAt l => do
    let u ← s.unitAt l
    return { s with selection := some u.select }
  | .hover none => .ok { s with hover := none }
  | .hover (some id) => do
    let u ← s.unit id
    return { s with hover := some u.path }
  | .language l => .ok { s with language := l }

/-- The session after an event, or as it was if the event does not apply. -/
def advance (s : Session) (e : Event) : Session :=
  match s.apply e with
  | .ok s' => s'
  | .error _ => s

/-- The session after events in order. -/
def run (s : Session) (es : List Event) : Session := es.foldl advance s

/-! ### What a session shows -/

/-- The expression for the selection in the session's language. -/
def snippet? (s : Session) : Option Snippet :=
  s.selection.map fun sel => s.language.snippet s.receiver sel.path

/-- The expression for the selection in every language. -/
def snippets (s : Session) : List Snippet :=
  s.selection.elim [] fun sel => Language.all.map (·.snippet s.receiver sel.path)

/-- The paths that a session emphasizes. -/
def emphasis (s : Session) : Emphasis := ⟨s.hover, s.selection.map (·.path)⟩

/-- The document of a session as text. -/
def render? (s : Session) (colour : Bool) : Option String :=
  s.tree?.map (·.render s.emphasis colour)

end Session

end JsonSelect
