/-! # Quoted text

A text is shown between quotation marks with backslash escapes. `escaped` says how one character is
written: the quotation mark and the backslash behind a backslash, five control characters by a
letter, the other characters below U+0020 by four hexadecimal digits, everything else as itself. A
quoted text is one JSON string literal, and it reads the same in every language snippets are
written for. -/

namespace JsonSelect.Text

/-- The hexadecimal digit of a number below sixteen, in lower case. -/
def hexDigit (n : Nat) : Char :=
  if n < 10 then Char.ofNat ('0'.toNat + n) else Char.ofNat ('a'.toNat + (n - 10))

/-- How one character is written between the quotation marks. -/
def escaped (c : Char) : List Char :=
  if c = '"' then ['\\', '"']
  else if c = '\\' then ['\\', '\\']
  else if c = '\x08' then ['\\', 'b']
  else if c = '\x0c' then ['\\', 'f']
  else if c = '\n' then ['\\', 'n']
  else if c = '\r' then ['\\', 'r']
  else if c = '\t' then ['\\', 't']
  else if c.toNat < 0x20 then
    ['\\', 'u', '0', '0', hexDigit (c.toNat / 16), hexDigit (c.toNat % 16)]
  else [c]

/-- The characters of a quoted text, quotation marks included. -/
def quoteChars (cs : List Char) : List Char := '"' :: (cs.flatMap escaped ++ ['"'])

/-- A text between quotation marks, with escapes. -/
def quote (s : String) : String := String.ofList (quoteChars s.toList)

end JsonSelect.Text
