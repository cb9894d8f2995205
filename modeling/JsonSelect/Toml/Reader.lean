import JsonSelect.Toml.Fault

/-! # Reading TOML

A reader takes characters from the front of a text. Where it fails, other readers may be tried from the
same place, unless the failure is final: it is where what was read before leaves no other choice. A
failure knows where it is and gathers, from the inside out, what was being read and what would have
been accepted.

* `Reader.attempt`, `Reader.either`: go on after a failure that is not final.
* `Reader.committed`: makes failures final.
* `Reader.separated`, `Reader.repeated`: as many results as there are. -/

namespace JsonSelect.Toml

/-- The rest of a source, and the offset that it starts at. -/
structure Cursor where
  offset : Nat
  rest : List Char
deriving DecidableEq, Repr

/-- Why reading fails. -/
structure Failure where
  offset : Nat
  /-- What was being read. -/
  subject : Option String
  /-- What would have been accepted, as it is spoken of. -/
  expected : List String
  /-- What is wrong with what was read. -/
  cause : Option String
  /-- Whether nothing else is tried in place of what failed. -/
  isFinal : Bool
deriving DecidableEq, Repr

namespace Failure

/-- The wording of a failure. -/
def message (f : Failure) : String :=
  let subject := f.subject.toList.map ("invalid " ++ ·)
  let expected := if f.expected.isEmpty then [] else ["expected " ++ ", ".intercalate f.expected]
  "\n".intercalate (subject ++ expected ++ f.cause.toList)

/-- The span of the character that the byte at `index` belongs to, in a text that starts at `offset`;
empty behind the text. -/
def spanAt (index offset : Nat) : List Char → Span
  | [] => ⟨offset, offset⟩
  | c :: cs =>
    if index < offset + c.utf8Size then ⟨offset, offset + c.utf8Size⟩
    else spanAt index (offset + c.utf8Size) cs

/-- The fault of a failure: it concerns the character it is at, or nothing at the end. -/
def fault (source : List Char) (f : Failure) : Fault := ⟨spanAt f.offset 0 source, f.message⟩

end Failure

/-- What takes a result from the front of a text. -/
abbrev Reader := StateT Cursor (Except Failure)

namespace Reader

/-! ### Taking characters -/

/-- The text that is still to be read. -/
def rest : Reader (List Char) := return (← get).rest

/-- The next character, which stays. -/
def peek : Reader (Option Char) := return (← rest).head?

/-- The offset of the next character. -/
def offset : Reader Nat := return (← get).offset

/-- Fails at an offset. -/
def failAt {α : Type} (offset : Nat) : Reader α := throw ⟨offset, none, [], none, false⟩

/-- Fails at the next character. -/
def fail {α : Type} : Reader α := do failAt (← offset)

/-- Fails at an offset because of what was read from there. -/
def reject {α : Type} (offset : Nat) (cause : String) : Reader α :=
  throw ⟨offset, none, [], some cause, false⟩

/-- Takes the next `n` characters. -/
def skip (n : Nat) : Reader Unit :=
  modify fun c =>
    ⟨c.offset + ((c.rest.take n).map Char.utf8Size).foldr (· + ·) 0, c.rest.drop n⟩

/-- Takes a character that satisfies `p`. -/
def satisfying (p : Char → Bool) : Reader Char := do
  match ← peek with
  | some c => if p c then skip 1; return c else fail
  | none => fail

/-- Takes characters as long as they satisfy `p`. -/
def takeWhile (p : Char → Bool) : Reader (List Char) := do
  let cs := (← rest).takeWhile p
  skip cs.length
  return cs

/-- Takes characters as long as they satisfy `p`, and at least one. -/
def takeSome (p : Char → Bool) : Reader (List Char) := do
  let cs ← takeWhile p
  if cs.isEmpty then fail else return cs

/-- Takes `n` characters that satisfy `p`. -/
def takeExactly (n : Nat) (p : Char → Bool) : Reader (List Char) := do
  let cs := ((← rest).take n).takeWhile p
  if cs.length = n then skip n; return cs else fail

/-- Whether a text comes next. -/
def sees (s : String) : Reader Bool := return s.toList.isPrefixOf (← rest)

/-- Takes a text if it comes next. -/
def accept (s : String) : Reader Bool := do
  if ← sees s then
    skip s.length
    return true
  else return false

/-- Takes a text that has to come next. -/
def require (s : String) : Reader Unit := do
  if ← accept s then return () else fail

/-! ### Failures -/

/-- Changes the failures of a reader. -/
def onFailure {α : Type} (change : Failure → Failure) (r : Reader α) : Reader α := fun c =>
  match r c with
  | .ok result => .ok result
  | .error f => .error (change f)

/-- Makes the failures of a reader final. -/
def committed {α : Type} (r : Reader α) : Reader α := onFailure ({ · with isFinal := true }) r

/-- Says what was being read, unless a reader within said so. -/
def about {α : Type} (subject : String) (r : Reader α) : Reader α :=
  onFailure (fun f => { f with subject := f.subject <|> some subject }) r

/-- Says what would have been accepted, behind what readers within say. -/
def expecting {α : Type} (names : List String) (r : Reader α) : Reader α :=
  onFailure (fun f => { f with expected := f.expected ++ names }) r

/-- Goes on with what `f` makes of a result, or fails where the reader started. -/
def checking {α β : Type} (f : α → Except String β) (r : Reader α) : Reader β := do
  let start ← offset
  match f (← r) with
  | .ok b => return b
  | .error cause => reject start cause

/-! ### Choices and repetitions -/

/-- The result of a reader, or none and the text as it was if it fails. -/
def attempt {α : Type} (r : Reader α) : Reader (Option α) := fun c =>
  match r c with
  | .ok (a, rest) => .ok (some a, rest)
  | .error f => if f.isFinal then .error f else .ok (none, c)

/-- The result of `r`, or that of `s` from the same place. -/
def either {α : Type} (r s : Reader α) : Reader α := do
  match ← attempt r with
  | some a => return a
  | none => s

/-- Whether a reader would have a result here; nothing is taken, and a final failure is put here. -/
def sighted {α : Type} (r : Reader α) : Reader Bool := fun c =>
  match attempt r c with
  | .ok (a, _) => .ok (a.isSome, c)
  | .error f => .error { f with offset := c.offset }

/-- Repeats a reader until it fails, at most `n` times. -/
def many {α : Type} (r : Reader α) : Nat → Reader (List α)
  | 0 => return []
  | n + 1 => do
    match ← attempt r with
    | none => return []
    | some a => return a :: (← many r n)

/-- Repeats a reader that takes something from the text until it fails. -/
def repeated {α : Type} (r : Reader α) : Reader (List α) := do
  many r ((← rest).length + 1)

/-- At least one item, with a mark between any two. A mark without an item behind it is not taken. -/
def separated {α : Type} (mark : String) (item : Reader α) : Reader (List α) := do
  let first ← item
  let more ← repeated do
    require mark
    item
  return first :: more

/-- Items with a mark between any two; perhaps none. -/
def separatedIfAny {α : Type} (mark : String) (item : Reader α) : Reader (List α) := do
  return (← attempt (separated mark item)).getD []

/-! ### Blanks and ends of lines -/

/-- Whether a character is a blank within a line. -/
def isBlank (c : Char) : Bool := c = ' ' || c = '\t'

/-- Blanks within a line. -/
def blanks : Reader Unit := do
  let _ ← takeWhile isBlank

/-- Whether a character may stand in a comment. -/
def isCommentChar (c : Char) : Bool := c = '\t' || (0x20 ≤ c.toNat && c.toNat ≠ 0x7F)

/-- A comment. -/
def comment : Reader Unit := do
  require "#"
  let _ ← takeWhile isCommentChar

/-- A line break. What is there in its place is known to be wrong once its first byte is read. -/
def lineBreak : Reader Unit := do
  match ← peek with
  | none => fail
  | some '\n' => skip 1
  | some '\r' =>
    skip 1
    require "\n"
  | some _ => failAt ((← offset) + 1)

/-- The end of the text. -/
def textEnd : Reader Unit := do
  if (← peek).isSome then fail

/-- The end of a line or of the text. -/
def lineEnd : Reader Unit := either lineBreak textEnd

/-- What may stand behind a value or a header: blanks, a comment and the end of the line. -/
def lineRest : Reader Unit :=
  expecting ["newline", "`#`"] do
    blanks
    let _ ← attempt comment
    lineEnd

/-- Blanks, comments and line breaks, with at most `n` line breaks. -/
def layoutLines : Nat → Reader Unit
  | 0 => return ()
  | n + 1 => do
    blanks
    match ← peek with
    | some '#' =>
      comment
      lineBreak
      layoutLines n
    | some '\n' | some '\r' =>
      lineBreak
      layoutLines n
    | _ => return ()

/-- Blanks, comments and line breaks. -/
def layout : Reader Unit := do
  layoutLines ((← rest).length + 1)

end Reader

end JsonSelect.Toml
