import JsonSelect.Reading.Depth
import JsonSelect.Reading.Grammar

/-! # Documents

A document is a source text together with the node it reads as. `Document.parse` refuses a source
that nests too deep, and otherwise gives the node that the grammar derives or the errors of the failures
that are reported. -/

namespace JsonSelect

open Reading

/-- What is wrong with a source: where it shows, and what is said of it. -/
structure ParseError where
  span : Span
  message : String
  /-- What is said beside the place where it shows. -/
  reason : String
deriving DecidableEq, Repr

/-- The error of the bracket at `offset`, which goes too deep. -/
def ParseError.tooDeep (offset : Nat) : ParseError :=
  let message := s!"nesting too deep: more than {maxDepth} levels"
  ⟨⟨offset, offset + 1⟩, message, message⟩

/-- The error of a failure of the grammar. -/
def ParseError.ofFailure (f : Failure) : ParseError := ⟨f.span, f.message, f.cause.message⟩

/-- A source text and the node it reads as. -/
structure Document where
  source : String
  root : Node
deriving Repr

namespace Document

/-- The levels that a source within `maxDepth` can have: its containers and a scalar inside. -/
def levels : Nat := maxDepth + 1

/-- The step of the grammar over a whole source. -/
def reading (source : String) : Step Node :=
  documentWithin levels (Cursor.start source.toList)

/-- What the grammar derives from a whole source. -/
def root? (source : String) : Option Node := (reading source).result.map (·.1)

/-- The notes of reading a whole source. -/
def notes (source : String) : Notes := (reading source).note Notes.none

/-- The failure at the start of a source, where nothing is noted. -/
def unexplained (source : String) : Failure := (Cursor.start source.toList).missing []

/-- The failure that is reported of a source from which the grammar derives no node. -/
def failure (source : String) : Failure := (notes source).failure.getD (unexplained source)

/-- What reading a whole source gives: a node if the grammar derives one, and the failures that are
reported. -/
def outcome (source : String) : Option Node × List Failure :=
  match root? source with
  | some root => (some root, [])
  | none => (none, [failure source])

/-- The document of what reading a source gives, or the errors of the failures. -/
def ofOutcome (source : String) : Option Node × List Failure → Except (List ParseError) Document
  | (some root, []) => .ok ⟨source, root⟩
  | (_, failures) => .error (failures.map .ofFailure)

/-- The document of a source, or all that is wrong with it. -/
def parse (source : String) : Except (List ParseError) Document :=
  match tooDeepAt? source.toList with
  | some offset => .error [.tooDeep offset]
  | none => ofOutcome source (outcome source)

end Document

end JsonSelect
