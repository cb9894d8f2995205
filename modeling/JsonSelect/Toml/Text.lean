import JsonSelect.Toml.Reader

/-! # TOML strings

Strings stand between quotation marks, with escapes, or between apostrophes, without; three of either
enclose a string that may run over several lines. -/

namespace JsonSelect.Toml

namespace Reader

/-! ### Digits -/

/-- Whether a character is a hexadecimal digit. -/
def isHexDigit (c : Char) : Bool :=
  c.isDigit || ('a' ≤ c && c ≤ 'f') || ('A' ≤ c && c ≤ 'F')

/-- The value of a digit. -/
def digitValue (c : Char) : Nat :=
  if c.isDigit then c.toNat - '0'.toNat
  else if 'a' ≤ c then c.toNat - 'a'.toNat + 10
  else c.toNat - 'A'.toNat + 10

/-- The number that digits denote. -/
def ofDigits (base : Nat) (cs : List Char) : Nat :=
  cs.foldl (fun n c => n * base + digitValue c) 0

/-- Why a number is refused. -/
def outOfRange : String := "value is out of range"

/-! ### Escapes -/

/-- The character whose number stands in `n` hexadecimal digits. -/
def charOfHex (n : Nat) : Reader Char :=
  checking (fun digits =>
      let code := ofDigits 16 digits
      if code.isValidChar then .ok (Char.ofNat code) else .error outOfRange)
    (takeExactly n isHexDigit)

/-- The letters of escapes with the characters they stand for. -/
def escapes : List (Char × Char) :=
  [('b', '\x08'), ('f', '\x0c'), ('n', '\n'), ('r', '\r'), ('t', '\t'), ('\\', '\\'), ('"', '"')]

/-- What may stand behind a backslash. -/
def escapeNames : List String := ["`b`", "`f`", "`n`", "`r`", "`t`", "`u`", "`U`", "`\\`", "`\"`"]

/-- An escape: a backslash and what stands behind it. What is no escape is known by its first byte. -/
def escape : Reader Char := do
  require "\\"
  match ← peek with
  | none => fail
  | some 'u' =>
    skip 1
    committed (about "unicode 4-digit hex code" (charOfHex 4))
  | some 'U' =>
    skip 1
    committed (about "unicode 8-digit hex code" (charOfHex 8))
  | some c =>
    match escapes.find? (·.1 == c) with
    | some (_, denoted) =>
      skip 1
      return denoted
    | none => committed (about "escape sequence" (expecting escapeNames (failAt ((← offset) + 1))))

/-! ### Strings of one line -/

/-- Whether a character may stand in a string of one line between marks `mark`. -/
def isTextChar (mark : Char) (c : Char) : Bool :=
  c = '\t' || (0x20 ≤ c.toNat && c.toNat ≠ 0x7F && c ≠ mark)

/-- Whether a character stands for itself between quotation marks. -/
def isPlainChar (c : Char) : Bool := isTextChar '"' c && c ≠ '\\'

/-- A string of one line between quotation marks. -/
def basicText : Reader String := do
  require "\""
  let pieces ← repeated (either (takeSome isPlainChar) do return [← escape])
  committed (about "basic string" (require "\""))
  return String.ofList pieces.flatten

/-- A string of one line between apostrophes. -/
def literalText : Reader String :=
  about "literal string" do
    require "'"
    let cs ← takeWhile (isTextChar '\'')
    committed (require "'")
    return String.ofList cs

/-! ### Strings of several lines -/

/-- A backslash at the end of a line, with the blanks and line breaks behind it. -/
def foldedBreak : Reader Unit := do
  require "\\"
  blanks
  lineBreak
  let _ ← repeated (either lineBreak do let _ ← takeSome isBlank)

/-- A piece of a string of several lines between quotation marks. -/
def longBasicPiece : Reader (List Char) :=
  either (takeSome isPlainChar) <|
  either (do foldedBreak; return []) <|
  either (do return [← escape]) do
    lineBreak
    return ['\n']

/-- A piece of a string of several lines between apostrophes. -/
def longLiteralPiece : Reader (List Char) :=
  either (takeSome (isTextChar '\'')) do
    lineBreak
    return ['\n']

/-- Two marks or one that stand for themselves, since `next` comes behind them. -/
def ownMarks (mark : Char) (next : Reader Unit) : Reader (List Char) := do
  let marks (n : Nat) : Reader (List Char) := do
    let cs ← takeExactly n (· = mark)
    if ← sighted next then return cs else fail
  either (marks 2) (marks 1)

/-- A string of several lines, in pieces, between three marks at either end. A line break right behind
the first ones does not count. Up to two marks belong to the string where a piece or the last three
marks come behind them. -/
def longText (mark : Char) (subject : String) (piece : Reader (List Char)) : Reader String :=
  about subject do
    let marks := String.ofList [mark, mark, mark]
    require marks
    let _ ← attempt lineBreak
    committed do
      let first ← repeated piece
      let more ← repeated do
        let own ← ownMarks mark do let _ ← piece
        let pieces ← repeated piece
        return own ++ pieces.flatten
      let last ← attempt (ownMarks mark (require marks))
      require marks
      return String.ofList (first.flatten ++ more.flatten ++ last.getD [])

/-- A string between quotation marks. -/
def quotedText : Reader String :=
  either (longText '"' "multiline basic string" longBasicPiece) basicText

/-- A string between apostrophes. -/
def apostrophedText : Reader String :=
  either (longText '\'' "multiline literal string" longLiteralPiece) literalText

/-- A string of any kind. -/
def text : Reader String := either quotedText apostrophedText

end Reader

end JsonSelect.Toml
