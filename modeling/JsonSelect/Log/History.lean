import JsonSelect.Log.Record
import JsonSelect.Session

/-! # What a session tells

The log records of a session: what is told when a text is read, when a tree is laid out, when an event
is applied and when expressions are written. Events that do not apply tell how far they got. -/

namespace JsonSelect.Log

/-- The name of a role in log records. -/
def roleName : Role → String
  | .literal => "Literal"
  | .opening => "Open"
  | .closing => "Close"
  | .key => "Key"

/-- A truth value in log records. -/
def truthName (b : Bool) : String := if b then "true" else "false"

/-- What is told of a unit with its number. -/
def unitRecord (u : TreeUnit) (id : Nat) : Record :=
  ⟨.trace, .tree, some "unit",
    [("id", toString id), ("role", roleName u.role), ("path", u.path.display)]⟩

/-- What is told when a tree is laid out. -/
def treeRecords (t : Tree) : List Record :=
  t.units.zipIdx.map (fun (u, id) => unitRecord u id) ++
    [⟨.debug, .tree, some "walked document",
      [("units", toString t.units.length), ("lines", toString t.lines.length)]⟩]

/-- What is told when the document of a session, if it has one, is laid out. -/
def layoutRecords (s : Session) : List Record := s.tree?.elim [] treeRecords

/-- What is told when a source is read. -/
def readingRecords (source : String) : List Record :=
  match Reading.tooDeepAt? source.toList with
  | some offset => [⟨.debug, .reading, some "document nested too deep", [("at", toString offset)]⟩]
  | none =>
    let collapsed := (Document.notes source).collapsed.map fun n =>
      (⟨.debug, .reading, some "duplicate object keys collapsed", [("dropped", toString n)]⟩ : Record)
    let failed := match Document.outcome source with
      | (some _, []) => []
      | (_, failures) =>
        [⟨.debug, .reading, some "document failed to parse", [("errors", toString failures.length)]⟩]
    collapsed ++ failed

/-- What is told when a language becomes the target language. -/
def languageRecords (l : Language) : List Record :=
  l.note?.toList.map fun note => ⟨.warn, .session, some note, []⟩

/-- What is told when a unit is selected. -/
def selectionRecord (sel : Selection) : Record :=
  ⟨.debug, .session, some "node selected", [("path", sel.path.display), ("kind", sel.kind.name)]⟩

/-- What is told of the selection of a session that may have been reached. -/
def selectedRecords (outcome : Except SessionError Session) : List Record :=
  match outcome with
  | .ok s => s.selection.toList.map selectionRecord
  | .error _ => []

/-- What is told when an event is applied to a session. -/
def eventRecords (s : Session) (e : Event) : List Record :=
  match e with
  | .edit source =>
    let valid := (Loaded.ofText source).document?.isSome
    readingRecords source ++
      [⟨.debug, .session, some "document edited", [("valid", truthName valid)]⟩]
  | .select _ => layoutRecords s ++ selectedRecords (s.apply e)
  | .selectAt l =>
    if (s.document?.bind (·.offsetOf? l)).isSome then
      layoutRecords s ++ selectedRecords (s.apply e)
    else []
  | .hover none => []
  | .hover (some _) => layoutRecords s
  | .language l =>
    ⟨.debug, .session, some "language selected", [("language", l.logName)]⟩ :: languageRecords l

/-- What is told when an expression is written for a path. -/
def snippetRecord (path : Path) (s : Snippet) : Record :=
  ⟨.trace, .access, some "encoded path",
    [("language", s.language.logName), ("path", path.display), ("code", s.code)]⟩

/-- What is told when expressions are written for the selection of a session. -/
def snippetRecords (s : Session) (snippets : List Snippet) : List Record :=
  s.selection.elim [] fun sel => snippets.map (snippetRecord sel.path)

end JsonSelect.Log
