import JsonSelect.Toml.Text

/-! # Written keys

The name of a key is written bare if that is possible. Otherwise it stands between quotation marks, or
between apostrophes where these take fewer escapes; a control character other than a tab leaves no
choice. -/

namespace JsonSelect.Toml

/-- Whether a character may stand in a bare key. -/
def isBareChar (c : Char) : Bool := c.isAlphanum || c = '-' || c = '_'

/-- Whether a name is a key as it stands. -/
def isBareName (cs : List Char) : Bool := !cs.isEmpty && cs.all isBareChar

/-- Whether a character has to be written by its number or by a letter. -/
def isControl (c : Char) : Bool := c ≠ '\t' && (c.toNat < 0x20 || c.toNat = 0x7F)

/-- The digits of a number below 256, four of them. -/
def codeDigits (n : Nat) : List Char :=
  let digits := (Nat.toDigits 16 n).map Char.toUpper
  List.replicate (4 - digits.length) '0' ++ digits

/-- How a character is written between quotation marks. -/
def keyChar (c : Char) : List Char :=
  match Reader.escapes.find? (·.2 == c) with
  | some (letter, _) => ['\\', letter]
  | none => if isControl c then '\\' :: 'u' :: codeDigits c.toNat else [c]

/-- The written key of a name. -/
def keyText (name : String) : String :=
  let cs := name.toList
  if isBareName cs then name
  else if cs.any isControl || '\'' ∈ cs || !(cs.contains '"' || cs.contains '\\') then
    "\"" ++ String.ofList (cs.flatMap keyChar) ++ "\""
  else "'" ++ name ++ "'"

end JsonSelect.Toml
