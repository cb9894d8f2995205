import JsonSelect.Reading.Failure
import JsonSelect.Text.Blank

/-! # Rules

A rule reads the front of a source from a cursor. Its step has two parts that do not mix: the result
with the cursor after it, if the rule matches, and what the step does to the notes. So what is read
never depends on what is noted. An alternative is tried from the same cursor as the one before it,
and the first that matches is taken. -/

namespace JsonSelect.Reading

/-- A place in a source: the characters ahead and the byte offset. -/
structure Cursor where
  ahead : List Char
  offset : Nat
deriving DecidableEq, Repr

/-- The cursor at the start of a source. -/
def Cursor.start (source : List Char) : Cursor := ⟨source, 0⟩

/-- The number of bytes of a text. -/
def byteLength : List Char → Nat
  | [] => 0
  | c :: cs => c.utf8Size + byteLength cs

/-- The cursor behind the next character; the same one at the end. -/
def Cursor.next (k : Cursor) : Cursor :=
  match k.ahead with
  | [] => k
  | c :: cs => ⟨cs, k.offset + c.utf8Size⟩

/-- The span of the next character, empty at the end. -/
def Cursor.cell (k : Cursor) : Span := ⟨k.offset, k.next.offset⟩

/-- The cursor behind the text `cs`, of which `rest` follows. -/
def Cursor.behind (k : Cursor) (cs rest : List Char) : Cursor := ⟨rest, k.offset + byteLength cs⟩

/-- The failure of a rule that expects something else at the cursor. -/
def Cursor.missing (k : Cursor) (expected : List Expectation) : Failure :=
  ⟨k.offset, .unexpected expected k.ahead.head?, k.cell⟩

/-- The outcome of a rule at a cursor. -/
structure Step (α : Type) where
  /-- What was read and the cursor behind it. -/
  result : Option (α × Cursor)
  /-- What the step does to the notes. -/
  note : Notes → Notes

/-- A rule that reads an `α`. -/
def Rule (α : Type) : Type := Cursor → Step α

namespace Rule

variable {α β : Type}

/-- Reads nothing. -/
protected def pure (a : α) : Rule α := fun k => ⟨some (a, k), id⟩

/-- One rule after another. -/
protected def bind (r : Rule α) (f : α → Rule β) : Rule β := fun k =>
  let first := r k
  match first.result with
  | none => ⟨none, first.note⟩
  | some (a, k') =>
    let second := f a k'
    ⟨second.result, fun n => second.note (first.note n)⟩

instance : Monad Rule where
  pure := Rule.pure
  bind := Rule.bind

/-- The first rule, or the second one where the first does not match. -/
protected def orElse (r : Rule α) (s : Unit → Rule α) : Rule α := fun k =>
  let first := r k
  match first.result with
  | some _ => first
  | none =>
    let second := s () k
    ⟨second.result, fun n => second.note (first.note n)⟩

instance : OrElse (Rule α) := ⟨Rule.orElse⟩

/-- A rule, or nothing where it does not match. -/
def optional (r : Rule α) : Rule (Option α) := fun k =>
  let step := r k
  match step.result with
  | some (a, k') => ⟨some (some a, k'), step.note⟩
  | none => ⟨some (none, k), step.note⟩

/-- Matches nowhere and notes nothing. -/
def fail : Rule α := fun _ => ⟨none, id⟩

/-- Matches nowhere: something else was expected at the cursor. -/
def miss (expected : List Expectation) : Rule α := fun k =>
  ⟨none, fun n => n.expect (k.missing expected)⟩

/-- Reads nothing and notes that something else could have stood at the cursor. -/
def noteMissing (expected : List Expectation) : Rule Unit := fun k =>
  ⟨some ((), k), fun n => n.expect (k.missing expected)⟩

/-- Matches nowhere because of what was read in `span`. -/
def reject (span : Span) (cause : Cause) : Rule α := fun _ =>
  ⟨none, fun n => n.record ⟨span.start, cause, span⟩⟩

/-- Reads nothing and forgets the failure noted so far. -/
def forget : Rule Unit := fun k => ⟨some ((), k), Notes.forget⟩

/-- Reads nothing and notes that an object lost members. -/
def noteCollapse (count : Nat) : Rule Unit := fun k => ⟨some ((), k), fun n => n.collapse count⟩

/-! ### Characters -/

/-- The character `c`. -/
def symbol (c : Char) : Rule Unit := fun k =>
  if k.ahead.head? = some c then ⟨some ((), k.next), id⟩ else miss [.symbol c] k

/-- The characters of `word` in order. -/
def keyword : List Char → Rule Unit
  | [] => Rule.pure ()
  | c :: cs => do
    symbol c
    keyword cs

/-- The end of the source. -/
def endOfInput : Rule Unit := fun k =>
  if k.ahead.isEmpty then ⟨some ((), k), id⟩ else miss [.endOfInput] k

/-- The longest run of characters of the class `p`. Notes nothing. -/
def run (p : Char → Bool) : Rule (List Char) := fun k =>
  let cs := k.ahead.takeWhile p
  ⟨some (cs, k.behind cs (k.ahead.dropWhile p)), id⟩

/-- One character of the class `p`, for which there is no word. -/
def one (p : Char → Bool) : Rule Char := fun k =>
  match k.ahead with
  | c :: _ => if p c then ⟨some (c, k.next), id⟩ else miss [] k
  | [] => miss [] k

/-- Blanks, perhaps none. -/
def blanks : Rule Unit := do
  let _ ← run Text.isBlank

/-! ### Combinations -/

/-- A rule with blanks around it. -/
def padded (r : Rule α) : Rule α := do
  blanks
  let a ← r
  blanks
  return a

/-- A rule with the span of what it reads. -/
def spanned (r : Rule α) : Rule (Span × α) := fun k =>
  let step := r k
  ⟨step.result.map fun (a, k') => ((⟨k.offset, k'.offset⟩, a), k'), step.note⟩

/-- A rule for texts of the sort `name`. A failure at its first character says that such a text was
expected. -/
def labelled (name : String) (r : Rule α) : Rule α := fun k =>
  let step := r k
  ⟨step.result, fun n =>
    let inner := step.note n.forget
    let outer := { inner with failure := n.failure }
    inner.failure.elim outer fun f => outer.record (f.relabel name k.offset)⟩

/-- Further items, each after a separator. A separator without an item behind it is left unread.
There are no more separators than characters in `bound`. -/
def furtherItems (item : Rule α) (separator : Rule Unit) : List Char → Rule (List α)
  | [] => do
    let _ ← optional separator
    return []
  | _ :: bound => do
    let next ← optional do
      separator
      item
    match next with
    | none => return []
    | some a =>
      let more ← furtherItems item separator bound
      return a :: more

/-- Items with a separator between two of them, perhaps none. Every separator is at least one
character long, so the text ahead bounds their number. -/
def separated (item : Rule α) (separator : Rule Unit) : Rule (List α) := do
  match ← optional item with
  | none => return []
  | some a =>
    let more ← fun k => furtherItems item separator k.ahead k
    return a :: more

end Rule

end JsonSelect.Reading
