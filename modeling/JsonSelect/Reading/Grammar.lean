import JsonSelect.Node
import JsonSelect.Reading.Rule

/-! # The grammar of documents

One rule for each sort of text: numbers, string literals, arrays, objects, values, and the document,
which is one value. The rule for values is given a nesting budget: `valueWithin n` reads values of at
most `n` levels, a scalar being one level. -/

namespace JsonSelect.Reading

open Rule

/-! ### Numbers -/

/-- Decimal digits, at least one. -/
def digits : Rule (List Char) := do
  let c ← one Char.isDigit
  let cs ← run Char.isDigit
  noteMissing []
  return c :: cs

/-- The whole digits of a number that does not start with a zero. -/
def nonzeroWhole : Rule (List Char) := do
  let c ← one fun c => Char.isDigit c && c ≠ '0'
  let cs ← run Char.isDigit
  forget
  return c :: cs

/-- The whole digits of a number: a zero, or digits that do not start with one. -/
def whole : Rule (List Char) :=
  nonzeroWhole <|> do
    symbol '0'
    return ['0']

/-- A decimal point and digits. -/
def fraction : Rule (List Char) := do
  symbol '.'
  digits

/-- A sign. What is expected in its place is noted behind the character that stands there. -/
def sign : Rule Char := fun k =>
  match k.ahead with
  | c :: _ =>
    if c = '+' || c = '-' then ⟨some (c, k.next), id⟩
    else ⟨none, fun n =>
      n.expect ⟨k.next.offset, .unexpected [.symbol '+', .symbol '-'] (some c), k.cell⟩⟩
  | [] => miss [.symbol '+', .symbol '-'] k

/-- The letter before an exponent. -/
def exponentLetter : Rule Char :=
  (do symbol 'e'; return 'e') <|> (do symbol 'E'; return 'E')

/-- The exponent of a number. -/
def exponent : Rule ExponentLiteral :=
  labelled "exponent" do
    let letter ← exponentLetter
    let sign ← optional sign
    let digits ← digits
    return ⟨letter, sign, digits⟩

/-- The parts of a number literal. -/
def numberLiteral : Rule NumberLiteral := do
  let minus ← optional (symbol '-')
  let whole ← whole
  let fraction ← optional fraction
  let exponent ← optional exponent
  return ⟨minus.isSome, whole, fraction, exponent⟩

/-- A number. A literal that denotes none is rejected as a whole. -/
def number : Rule Number :=
  labelled "number" do
    let (span, literal) ← spanned numberLiteral
    match literal.number? with
    | some n => return n
    | none => reject span (.outOfRange (String.ofList literal.chars))

/-! ### String literals -/

/-- The pieces of a string literal up to the closing quotation mark. Nothing stays noted about the
place where they end. -/
def contents : Rule (List Text.Piece) := do
  let ps ← fun k =>
    let (ps, rest) := Text.pieces k.ahead
    ⟨some (ps, ⟨rest, k.offset + Text.Piece.sizes ps⟩), id⟩
  forget
  return ps

/-- The text that the contents of a string literal denote. Contents that denote none are rejected as
a whole, whatever follows them. -/
def decoded : Rule String := do
  let (span, ps) ← spanned contents
  match Text.decode ps with
  | .ok cs => return String.ofList cs
  | .error e => reject span (.undecodable e)

/-- A string literal. -/
def stringLiteral : Rule String :=
  labelled "string" do
    symbol '"'
    let s ← decoded
    symbol '"'
    return s

/-! ### Arrays, objects and values -/

/-- The comma between two items. -/
def comma : Rule Unit := padded (symbol ',')

/-- The inside of a container between its brackets. -/
def bracketed {α : Type} (left right : Char) (inside : Rule α) : Rule α := do
  symbol left
  let a ← padded inside
  symbol right
  return a

/-- An array of items read by `value`. -/
def array (value : Rule Node) : Rule (List Node) :=
  labelled "array" (bracketed '[' ']' (separated value comma))

/-- A member of an object. -/
def member (value : Rule Node) : Rule (Key × Node) :=
  labelled "object member" do
    let (span, name) ← spanned stringLiteral
    padded (symbol ':')
    let n ← value
    return (⟨name, span⟩, n)

/-- The members of an object, collapsed to one for each key as soon as the last one is read. -/
def members (value : Rule Node) : Rule (List (Key × Node)) := do
  let all ← separated (member value) comma
  let distinct := Members.collapse all
  noteCollapse (all.length - distinct.length)
  return distinct

/-- An object of members whose values are read by `value`. -/
def object (value : Rule Node) : Rule (List (Key × Node)) :=
  labelled "object" (bracketed '\x7b' '\x7d' (members value))

/-- The keyword `word` for the scalar `s`. -/
def constant (word : String) (s : Scalar) : Rule (Span → Node) :=
  labelled word do
    keyword word.toList
    return fun span => .scalar span s

/-- Any value whose parts are read by `value`, still without its span. -/
def spanless (value : Rule Node) : Rule (Span → Node) :=
  constant "null" .null
  <|> constant "true" (.boolean true)
  <|> constant "false" (.boolean false)
  <|> (do let n ← number; return fun span => .scalar span (.number n))
  <|> (do let s ← stringLiteral; return fun span => .scalar span (.string s))
  <|> (do let items ← array value; return fun span => .array span items)
  <|> (do let members ← object value; return fun span => .object span members)

/-- A value of at most `n` levels, with blanks around it. -/
def valueWithin : Nat → Rule Node
  | 0 => fail
  | n + 1 => padded do
    let (span, node) ← spanned (spanless (valueWithin n))
    return node span

/-- A document: one value of at most `n` levels, and nothing else. -/
def documentWithin (n : Nat) : Rule Node :=
  labelled "JSON document" do
    let node ← valueWithin n
    endOfInput
    return node

end JsonSelect.Reading
