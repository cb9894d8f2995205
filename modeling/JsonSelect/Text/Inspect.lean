import JsonSelect.Text.Visible

/-! # Inspected text

In log lines and in some messages a text stands between quotation marks in such a way that each of its
characters can be told apart: quotation marks, backslashes and common control characters by a letter
behind a backslash, and other characters that show nothing on their own by their number. -/

namespace JsonSelect.Text

/-- The hexadecimal digits of a number. -/
def hexChars (n : Nat) : List Char := Nat.toDigits 16 n

/-- How one character is inspected. -/
def inspectChar (c : Char) : List Char :=
  if c = '\x00' then ['\\', '0']
  else if c = '\t' then ['\\', 't']
  else if c = '\r' then ['\\', 'r']
  else if c = '\n' then ['\\', 'n']
  else if c = '"' then ['\\', '"']
  else if c = '\\' then ['\\', '\\']
  else if isVisible c then [c]
  else ['\\', 'u', '\x7b'] ++ hexChars c.toNat ++ ['\x7d']

/-- A text between quotation marks with every character visible. -/
def inspect (s : String) : String :=
  String.ofList ('"' :: (s.toList.flatMap inspectChar ++ ['"']))

end JsonSelect.Text
