/-! # The contents of a string literal

Between its quotation marks a string literal is a run of *pieces*: a plain character, a backslash
and one of eight characters, or a backslash, `u` and four hexadecimal digits. The shape of the
pieces does not settle what they denote: a plain character may be a control character, which has to
be escaped, and a hexadecimal escape may be half of a surrogate pair.

* `pieces`: the longest run of pieces at the front of a text, and what follows it.
* `decode`: the text that pieces denote, or the first fault and the place where it shows. -/

namespace JsonSelect.Text

/-- The value of a hexadecimal digit, in either case. -/
def hexValue? (c : Char) : Option Nat :=
  if '0' ≤ c ∧ c ≤ '9' then some (c.toNat - '0'.toNat)
  else if 'a' ≤ c ∧ c ≤ 'f' then some (c.toNat - 'a'.toNat + 10)
  else if 'A' ≤ c ∧ c ≤ 'F' then some (c.toNat - 'A'.toNat + 10)
  else none

/-- A UTF-16 unit that begins a surrogate pair. -/
def isLeading (unit : Nat) : Bool := 0xD800 ≤ unit && unit ≤ 0xDBFF

/-- A UTF-16 unit that completes a surrogate pair. -/
def isTrailing (unit : Nat) : Bool := 0xDC00 ≤ unit && unit ≤ 0xDFFF

/-- The character of a surrogate pair. -/
def pairChar (leading trailing : Nat) : Char :=
  Char.ofNat (0x10000 + (leading - 0xD800) * 0x400 + (trailing - 0xDC00))

/-- The characters that a backslash may stand before on their own. -/
def isShortEscape (c : Char) : Bool := "\\/\"bfnrt".toList.contains c

/-- What a backslash and one character denote. -/
def shortMeaning (c : Char) : Char :=
  if c = 'b' then '\x08'
  else if c = 'f' then '\x0c'
  else if c = 'n' then '\n'
  else if c = 'r' then '\r'
  else if c = 't' then '\t'
  else c

/-- One piece of the contents of a string literal. -/
inductive Piece where
  /-- A character that stands for itself. -/
  | plain (c : Char)
  /-- A backslash and the character `letter`. -/
  | short (letter : Char)
  /-- A backslash, `u` and four hexadecimal digits of value `unit`. -/
  | unicode (unit : Nat)
deriving DecidableEq, Repr

/-- The length of a piece in bytes. -/
def Piece.size : Piece → Nat
  | .plain c => c.utf8Size
  | .short _ => 2
  | .unicode _ => 6

/-- The length of pieces in bytes. -/
def Piece.sizes : List Piece → Nat
  | [] => 0
  | p :: ps => p.size + sizes ps

/-- The value of four hexadecimal digits. -/
def unitOf? (a b c d : Char) : Option Nat := do
  let a ← hexValue? a
  let b ← hexValue? b
  let c ← hexValue? c
  let d ← hexValue? d
  return ((a * 16 + b) * 16 + c) * 16 + d

/-- The longest run of pieces at the front of a text, and what follows it. -/
def pieces : List Char → List Piece × List Char
  | [] => ([], [])
  | c :: rest =>
    if c = '"' then ([], c :: rest)
    else if c = '\\' then
      match rest with
      | 'u' :: h₁ :: h₂ :: h₃ :: h₄ :: rest' =>
        match unitOf? h₁ h₂ h₃ h₄ with
        | some unit =>
          let (ps, after) := pieces rest'
          (.unicode unit :: ps, after)
        | none => ([], c :: rest)
      | letter :: rest' =>
        if isShortEscape letter then
          let (ps, after) := pieces rest'
          (.short letter :: ps, after)
        else ([], c :: rest)
      | [] => ([], [c])
    else
      let (ps, after) := pieces rest
      (.plain c :: ps, after)

/-! ### Decoding -/

/-- Why pieces denote no text. -/
inductive LiteralFault where
  /-- A character below U+0020 stands for itself. -/
  | control
  /-- Half of a surrogate pair without the other half. -/
  | loneSurrogate
  /-- Something other than a hexadecimal escape follows the first half of a surrogate pair. -/
  | unfinishedPair
deriving DecidableEq, Repr

/-- The wording of a fault. -/
def LiteralFault.message : LiteralFault → String
  | .control => "control character (\\u0000-\\u001F) found while parsing a string"
  | .loneSurrogate => "lone leading surrogate in hex escape"
  | .unfinishedPair => "unexpected end of hex escape"

/-- A fault and where it shows: the line of the literal, counted from one, and how many bytes of
that line were read. -/
structure LiteralError where
  fault : LiteralFault
  line : Nat
  column : Nat
deriving DecidableEq, Repr

/-- The wording of a literal error. -/
def LiteralError.message (e : LiteralError) : String :=
  s!"{e.fault.message} at line {e.line} column {e.column}"

/-- A fault that the first byte of the plain character `c` shows, which follows `column` bytes. A line
feed counts to the line that it begins. -/
def errorAt (fault : LiteralFault) (column : Nat) (c : Char) : LiteralError :=
  if c = '\n' then ⟨fault, 2, 0⟩ else ⟨fault, 1, column + 1⟩

/-- The error of a leading surrogate behind `column` bytes that pieces other than a hexadecimal escape
follow, or the closing quotation mark. -/
def unfinishedError (column : Nat) : List Piece → LiteralError
  | .plain c :: _ => errorAt .unfinishedPair column c
  | .short _ :: _ => ⟨.unfinishedPair, 1, column + 2⟩
  | _ => ⟨.unfinishedPair, 1, column + 1⟩

/-- The text that pieces denote, after `column` bytes of the literal. -/
def decodeFrom (column : Nat) : List Piece → Except LiteralError (List Char)
  | [] => .ok []
  | .plain c :: ps =>
    if c.toNat < 0x20 then .error (errorAt .control column c)
    else do
      let cs ← decodeFrom (column + c.utf8Size) ps
      return c :: cs
  | .short letter :: ps => do
    let cs ← decodeFrom (column + 2) ps
    return shortMeaning letter :: cs
  | .unicode unit :: ps =>
    if isTrailing unit then .error ⟨.loneSurrogate, 1, column + 6⟩
    else if isLeading unit then
      match ps with
      | .unicode unit' :: ps' =>
        if isTrailing unit' then do
          let cs ← decodeFrom (column + 12) ps'
          return pairChar unit unit' :: cs
        else .error ⟨.loneSurrogate, 1, column + 12⟩
      | ps' => .error (unfinishedError (column + 6) ps')
    else do
      let cs ← decodeFrom (column + 6) ps
      return Char.ofNat unit :: cs

/-- The text that the pieces of a literal denote; the opening quotation mark is its first byte. -/
def decode (ps : List Piece) : Except LiteralError (List Char) := decodeFrom 1 ps

end JsonSelect.Text
