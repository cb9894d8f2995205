import JsonSelect.Toml.Figure
import JsonSelect.Toml.KeyText
import JsonSelect.Toml.Table

/-! # TOML keys and values

Keys are bare words or strings with points between them. Values are told apart by their first
character; arrays and tables between braces may nest as far as `maxLevels`. -/

namespace JsonSelect.Toml

namespace Reader

/-! ### Keys -/

/-- How many parts a key may not have, and how deep values may not nest. -/
def depthLimit : Nat := 80

/-- Why a key or a value is refused that has too many levels. -/
def tooDeep : String := "recursion limit exceeded"

/-- The name of one part of a key. -/
def keyName : Reader String := do
  match ← peek with
  | some '"' => basicText
  | some '\'' => literalText
  | _ => return String.ofList (← takeSome isBareChar)

/-- One part of a key with the blanks around it. -/
def keyPart : Reader Key := do
  blanks
  let start ← offset
  let name ← keyName
  let stop ← offset
  blanks
  return ⟨name, ⟨start, stop⟩⟩

/-- A key: the parts in front of its last one, and that one. -/
def key : Reader (List Key × Key) := do
  let start ← offset
  let parts ← about "key" (separated "." keyPart)
  match parts.reverse with
  | [] => fail
  | last :: before =>
    if depthLimit ≤ parts.length then reject start tooDeep else return (before.reverse, last)

/-- The sign between a key and its value. -/
def keySign : Reader Unit := expecting ["`.`", "`=`"] (require "=")

/-! ### Scalars -/

/-- A value where none starts, or one that has to be a word: a string could stand in its place. -/
def inPlaceOfText {α : Type} (r : Reader α) : Reader α :=
  about "string" (expecting ["`\"`", "`'`"] r)

/-- A number where there is neither a digit nor a sign. -/
def inPlaceOfDigit {α : Type} (r : Reader α) : Reader α := expecting ["leading digit"] r

/-- A value without parts that starts with the character `c`. -/
def scalar (c : Char) : Reader Scalar :=
  if c = '"' || c = '\'' then do return .text (← text)
  else if c = '+' || c = '-' || c.isDigit then figure
  else if c = '_' then do return .integer (← inPlaceOfDigit integer)
  else if c = '.' then do return .float (← inPlaceOfDigit float)
  else
    inPlaceOfText <|
      if c = 't' then do committed (require "true"); return .boolean true
      else if c = 'f' then do committed (require "false"); return .boolean false
      else if c = 'i' then do require "inf"; return .float (1 / 0)
      else if c = 'n' then do require "nan"; return .float (0 / 0)
      else fail

/-! ### Arrays and tables between braces -/

/-- The items of an array, with commas between them and perhaps one behind the last. -/
def items (item : Reader Item) : Reader (List Item) := do
  if (← peek) = some ']' then return []
  else
    let is ← separatedIfAny "," do
      layout
      let i ← item
      layout
      return i
    unless is.isEmpty do
      let _ ← accept ","
    layout
    return is

/-- An array. -/
def array (item : Reader Item) : Reader (List Item) := do
  require "["
  committed do
    let is ← items item
    about "array" (expecting ["`]`"] (require "]"))
    return is

/-- An entry of a table between braces. -/
def bracedEntry (item : Reader Item) : Reader (List Key × Key × Item) := do
  let (path, last) ← key
  committed do
    keySign
    blanks
    let i ← item
    blanks
    return (path, last, i)

/-- A table between braces. What does not fit together is refused at its first entry. -/
def braces (item : Reader Item) : Reader Entries := do
  require "\x7b"
  committed do
    let entries ← checking Entries.ofBraces do
      let found ← separatedIfAny "," (bracedEntry item)
      blanks
      return found
    about "inline table" (expecting ["`\x7d`"] (require "\x7d"))
    return entries

/-- A value, where `item?` reads the values within it if there may be any. -/
def valueAround (item? : Option (Reader Item)) : Reader Item := do
  let start ← offset
  match ← peek with
  | none => fail
  | some c =>
    if c = '[' || c = '\x7b' then
      match item? with
      | none => committed (reject start tooDeep)
      | some item =>
        if c = '[' then
          let is ← array item
          return .array ⟨start, ← offset⟩ is
        else
          let entries ← braces item
          return .table (some ⟨start, ← offset⟩) .braces entries
    else
      let s ← scalar c
      return .scalar ⟨start, ← offset⟩ s

/-- A value with at most `levels` levels of arrays and tables. -/
def valueWithin : Nat → Reader Item
  | 0 => valueAround none
  | levels + 1 => valueAround (some (valueWithin levels))

/-- A value. -/
def value : Reader Item := valueWithin (depthLimit - 1)

end Reader

end JsonSelect.Toml
