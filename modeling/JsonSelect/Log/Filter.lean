import JsonSelect.Log.Directive
import JsonSelect.Log.Record
import JsonSelect.Text.Parts

/-! # Log filters

A filter says which records are written. It is a list of directives with commas between them. A record
is written if the closest directive that covers it admits its level. There are no spans, so directives
that ask for one cover nothing. -/

namespace JsonSelect.Log

/-- The rules that say which records are written. -/
abbrev Filter := List Directive

/-- The filter that a text denotes. -/
def Filter.read? (s : String) : Option Filter :=
  ((Text.parts ',' s.toList).filter (!·.isEmpty)).mapM Directive.ofChars?

/-- The filter that writes warnings and errors. -/
def Filter.warnings : Filter := [⟨none, none, none, Level.warn.rank⟩]

/-- The filter that a variable with the text `s` asks for, if it is set at all. -/
def Filter.ofVariable (s : Option String) : Filter := (s.bind Filter.read?).getD .warnings

/-- Whether a record has a field; its message is one. -/
def Record.hasField (r : Record) (name : String) : Bool :=
  (name == "message" && r.message.isSome) || r.fields.any (·.1 == name)

/-- Whether a directive decides about a record. -/
def Directive.covers (d : Directive) (r : Record) : Bool :=
  d.isStatic && d.target.all (fun t => t.toList.isPrefixOf r.topic.name.toList) &&
    d.field.all fun f => r.hasField f.name

/-- Whether a filter writes a record. -/
def Filter.admits (f : Filter) (r : Record) : Bool :=
  let closest := (f.filter (·.covers r)).foldl
    (fun (known : Option Directive) d => some (known.elim d (·.closer d))) none
  closest.any fun d => r.level.rank ≤ d.rank

/-- The text of the records that a filter writes. -/
def text (f : Filter) (colour : Bool) (records : List Record) : String :=
  String.join ((records.filter f.admits).map (·.text colour))

end JsonSelect.Log
