import JsonSelect.Number.Literal
import JsonSelect.Span
import JsonSelect.Text.Literal

/-! # Failures and notes of a reading

A reading that fails says what it found at the furthest place it got to and what it expected there.
It learns this from *notes*: each rule that does not match leaves a failure, also where another
alternative matches later. Notes keep one failure only. A failure further on replaces it, one before
it is ignored, and two at the same place are joined:

* `Notes.expect` adds to the expectations what it lacks;
* `Notes.record` puts the longer list of expectations first.

Notes also count the object members that were collapsed on the way. -/

namespace JsonSelect.Reading

/-- Something that would have been accepted at a place. -/
inductive Expectation where
  /-- The character `c`. -/
  | symbol (c : Char)
  /-- Some text of the sort `name`. -/
  | sort (name : String)
  /-- The end of the source. -/
  | endOfInput
deriving DecidableEq, Repr

/-- The wording of an expectation. -/
def Expectation.message : Expectation → String
  | .symbol c => s!"'{c}'"
  | .sort name => name
  | .endOfInput => "end of input"

/-- Why reading fails at a place. -/
inductive Cause where
  /-- The character `found`, or the end of the source, is none of the things expected. -/
  | unexpected (expected : List Expectation) (found : Option Char)
  /-- A number literal denotes no floating-point number. -/
  | outOfRange (literal : String)
  /-- The contents of a string literal denote no text. -/
  | undecodable (error : Text.LiteralError)
  /-- Causes that cannot be joined; `found` is the first character that one of them found. -/
  | several (found : Option Char)
deriving DecidableEq, Repr

/-- The character that did not fit. -/
def Cause.found : Cause → Option Char
  | .unexpected _ found => found
  | .several found => found
  | .outOfRange _ => none
  | .undecodable _ => none

/-- The expectations separated by commas, the last one after "or". -/
def alternatives : List Expectation → String
  | [] => "something else"
  | [e] => e.message
  | e :: es =>
    ", ".intercalate (e.message :: es.dropLast.map Expectation.message) ++
      (es.getLast?.elim "" fun l => ", or " ++ l.message)

/-- The wording of a cause. -/
def Cause.message : Cause → String
  | .unexpected expected found =>
    let found := found.elim "end of input" fun c => String.ofList [c]
    s!"found {found} expected {alternatives expected}"
  | .outOfRange literal => s!"number `{literal}` is out of range"
  | .undecodable error => s!"invalid string literal: {error.message}"
  | .several _ => "multiple errors"

/-- A failure at `place`, a byte offset, because of what stands in `span`. -/
structure Failure where
  place : Nat
  cause : Cause
  span : Span
deriving DecidableEq, Repr

/-- The wording of a failure. Rules put no context around their failures, so it is that of the cause. -/
def Failure.message (f : Failure) : String := f.cause.message

/-! ### Joining causes -/

/-- A list with the items of another that it lacks. -/
def addMissing (known new : List Expectation) : List Expectation :=
  new.foldl (fun es e => if e ∈ es then es else es ++ [e]) known

/-- The expectations of two causes, those of the longer list first. -/
def longerFirst (known new : List Expectation) : List Expectation :=
  if known.length < new.length then addMissing new known else addMissing known new

/-- A cause joined with a later one by `combine`, which says how expectations add up. What was found
first stays. -/
def Cause.join (combine : List Expectation → List Expectation → List Expectation) :
    Cause → Cause → Cause
  | .unexpected known found, .unexpected new _ => .unexpected (combine known new) found
  | known, new => .several (known.found <|> new.found)

/-! ### Notes -/

/-- What a reading leaves behind besides its result. -/
structure Notes where
  /-- The furthest failure so far. -/
  failure : Option Failure
  /-- How many members were collapsed in each object that repeats a key, in order of reading. -/
  collapsed : List Nat
deriving DecidableEq, Repr

/-- The notes before anything is read. -/
def Notes.none : Notes := ⟨Option.none, []⟩

/-- The failure that remains of the known one and a new one. -/
def Failure.merge (combine : List Expectation → List Expectation → List Expectation)
    (known new : Failure) : Failure :=
  if known.place < new.place then new
  else if new.place < known.place then known
  else ⟨known.place, known.cause.join combine new.cause, known.span⟩

/-- Notes with a new failure, joined by `combine` with a known failure at the same place. -/
def Notes.merge (combine : List Expectation → List Expectation → List Expectation)
    (notes : Notes) (new : Failure) : Notes :=
  { notes with failure := some (notes.failure.elim new (·.merge combine new)) }

/-- Notes the failure of a rule that expects something else. -/
def Notes.expect (notes : Notes) (new : Failure) : Notes := notes.merge addMissing new

/-- Notes a failure that stands for a whole alternative. -/
def Notes.record (notes : Notes) (new : Failure) : Notes := notes.merge longerFirst new

/-- Forgets the failure. -/
def Notes.forget (notes : Notes) : Notes := { notes with failure := Option.none }

/-- Notes that an object lost `count` members. -/
def Notes.collapse (notes : Notes) (count : Nat) : Notes :=
  if count = 0 then notes else { notes with collapsed := notes.collapsed ++ [count] }

/-- A failure of a rule for texts of the sort `name` that started at `start`: if it got no further
than that, it expected such a text. -/
def Failure.relabel (f : Failure) (name : String) (start : Nat) : Failure :=
  if f.place = start then { f with cause := .unexpected [.sort name] f.cause.found } else f

end JsonSelect.Reading
