import JsonSelect.Session

/-! # Reports of a selection

A selection is shown as text, one line for each of its path, kind and value and one or two for each
expression, or as a JSON value with the same contents. -/

namespace JsonSelect

/-- Fills up a text with blanks to `width` characters. -/
def padded (width : Nat) (s : String) : String := s.pushn ' ' (width - s.length)

/-- The lines of an expression: the language's name filled up to `width`, the expression, and the
language's note. -/
def Snippet.text (colour : Bool) (width : Nat) (s : Snippet) : String :=
  let name := padded width s.language.displayName
  let blank := padded width ""
  let note := s.language.note?.elim "" fun n => s!"{blank}  note: {n}\n"
  s!"{name}  {Text.Colour.green.paintIf colour s.code}\n{note}"

/-- The width of the widest language name. -/
def nameWidth (snippets : List Snippet) : Nat :=
  (snippets.map fun s => s.language.displayName.length).foldl max 0

/-- A selection and expressions for it as text. -/
def Selection.text (sel : Selection) (snippets : List Snippet) (colour : Bool) : String :=
  let head :=
    s!"path:  {sel.path.display}\nkind:  {sel.kind.name}\nvalue: {sel.value.compact}\n"
  head ++ String.join (snippets.map (·.text colour (nameWidth snippets)))

/-- A selection as a JSON value. -/
def Selection.toValue (sel : Selection) : Value :=
  .object [("path", sel.path.value), ("value", sel.value), ("kind", .string sel.kind.name)]

/-- An expression as a JSON value, with a note only where the language has one. -/
def Snippet.toValue (s : Snippet) : Value :=
  .object <|
    [("language", .string s.language.name), ("display_name", .string s.language.displayName),
      ("code", .string s.code)] ++ s.language.note?.toList.map fun n => ("note", .string n)

/-- A selection and expressions for it as a JSON value. -/
def Selection.report (sel : Selection) (snippets : List Snippet) : Value :=
  .object [("selection", sel.toValue), ("snippets", .array (snippets.map Snippet.toValue))]

end JsonSelect
