import JsonSelect.Proofs.Text.Spelling
import JsonSelect.Node
import JsonSelect.Number.Literal
import JsonSelect.Text.Blank

/-! # Written values

A *form* is a value as it is written: its tokens, nested as arrays and objects nest, together with all
that stands between them. It is a derivation in the grammar of documents:

* `Form.chars`: the text of a form.
* `Form.Grammatical`: the tokens of a form are tokens, and there are only blanks between them.
* `Form.depth`: how deep arrays and objects nest.
* `Form.Accepted`: every number literal of a form denotes a number, and every string literal a text.
* `Form.value`: the value that a form denotes, each key of an object at the place of its first member and
  with the content of its last one (`latest`).
* `Form.node`: the node of a form that stands at an offset.

`Derives source pad f` says that a source is the form `f` with the blanks `pad` around it. -/

namespace JsonSelect.Written

open Text Reading

/-! ### Tokens -/

/-- Decimal digits, at least one. -/
def Digits (ds : List Char) : Prop := ds ≠ [] ∧ ∀ c ∈ ds, c.isDigit = true

/-- The exponent of a number literal. -/
structure GrammaticalExponent (e : ExponentLiteral) : Prop where
  letter : e.letter = 'e' ∨ e.letter = 'E'
  sign : ∀ c, e.sign = some c → c = '+' ∨ c = '-'
  digits : Digits e.digits

/-- A number literal. The whole digits are a zero or do not start with one. -/
structure GrammaticalNumber (l : NumberLiteral) : Prop where
  whole : l.whole = ['0'] ∨ Digits l.whole ∧ l.whole.head? ≠ some '0'
  fraction : ∀ ds, l.fraction = some ds → Digits ds
  exponent : ∀ e, l.exponent = some e → GrammaticalExponent e

/-- The contents of a string literal: plain characters and escapes. -/
def Contents (raw : List Char) : Prop := ∃ ps, Spells ps raw

/-- Blanks, perhaps none. -/
def Blanks (cs : List Char) : Prop := ∀ c ∈ cs, isBlank c = true

theorem blanks_nil : Blanks [] := by
  intro c hc
  cases hc

/-- The text between two quotation marks. -/
def enclosed (raw : List Char) : List Char := '"' :: (raw ++ ['"'])

/-- The text that the contents of a string literal denote; the empty one if they denote none. -/
def denoted (raw : List Char) : String :=
  match meaning raw with
  | .ok cs => String.ofList cs
  | .error _ => ""

/-- A scalar as it is written. A string literal is given by its contents. -/
inductive Literal where
  | null
  | boolean (b : Bool)
  | number (l : NumberLiteral)
  | string (raw : List Char)

/-- The text of a literal. -/
def Literal.chars : Literal → List Char
  | .null => ['n', 'u', 'l', 'l']
  | .boolean true => ['t', 'r', 'u', 'e']
  | .boolean false => ['f', 'a', 'l', 's', 'e']
  | .number l => l.chars
  | .string raw => enclosed raw

/-- What a literal denotes; a number literal that denotes none is taken for zero. -/
def Literal.scalar : Literal → Scalar
  | .null => .null
  | .boolean b => .boolean b
  | .number l => .number (l.number?.getD (.integer 0))
  | .string raw => .string (denoted raw)

/-- What stands in front of a text and behind it. -/
structure Pad where
  before : List Char
  after : List Char

/-- A text with its pad. -/
def Pad.around (p : Pad) (cs : List Char) : List Char := p.before ++ cs ++ p.after

/-- What a member of an object has besides its value: a pad around the member, the contents of the key,
and a pad around the colon. -/
structure Label where
  outer : Pad
  raw : List Char
  colon : Pad

/-- The text of a member in front of its value, from the key on. -/
def Label.front (l : Label) : List Char := enclosed l.raw ++ l.colon.around [':']

/-- The name of a member. -/
def Label.name (l : Label) : String := denoted l.raw

/-! ### Forms -/

/-- A value as it is written. `gap` is what follows the opening bracket. -/
inductive Form where
  | literal (l : Literal)
  | array (gap : List Char) (items : List (Pad × Form))
  | object (gap : List Char) (members : List (Label × Form))

namespace Form

/-- Texts with a comma between two of them. -/
def commas (texts : List (List Char)) : List Char := [','].intercalate texts

mutual

/-- The text of a form. -/
def chars : Form → List Char
  | .literal l => l.chars
  | .array gap items => '[' :: (gap ++ commas (itemTexts items) ++ [']'])
  | .object gap members => '\x7b' :: (gap ++ commas (memberTexts members) ++ ['\x7d'])

/-- The texts of the items of an array. -/
def itemTexts : List (Pad × Form) → List (List Char)
  | [] => []
  | (pad, f) :: items => pad.around f.chars :: itemTexts items

/-- The texts of the members of an object. -/
def memberTexts : List (Label × Form) → List (List Char)
  | [] => []
  | (label, f) :: members => label.outer.around (label.front ++ f.chars) :: memberTexts members

end

section Each
variable (number : NumberLiteral → Prop) (string between : List Char → Prop)

mutual

/-- Every number literal, the contents of every string literal, and every text between two tokens have
the given properties. -/
def Each : Form → Prop
  | .literal (.number l) => number l
  | .literal (.string raw) => string raw
  | .literal _ => True
  | .array gap items => between gap ∧ EachItem items
  | .object gap members => between gap ∧ EachMember members

/-- The properties of a form for the items of an array. -/
def EachItem : List (Pad × Form) → Prop
  | [] => True
  | (pad, f) :: items => (between pad.before ∧ between pad.after) ∧ f.Each ∧ EachItem items

/-- The properties of a form for the members of an object. -/
def EachMember : List (Label × Form) → Prop
  | [] => True
  | (label, f) :: members => (between label.outer.before ∧ between label.outer.after) ∧
      string label.raw ∧ (between label.colon.before ∧ between label.colon.after) ∧
        f.Each ∧ EachMember members

end

end Each

/-- The tokens are tokens and there are only blanks between them. -/
def Grammatical (f : Form) : Prop := f.Each GrammaticalNumber Contents Blanks

/-- Every number literal denotes a number and every string literal a text. -/
def Accepted (f : Form) : Prop :=
  f.Each (fun l => ∃ n, l.number? = some n) (fun raw => ∃ cs, meaning raw = .ok cs) fun _ => True

mutual

/-- How deep arrays and objects nest. -/
def depth : Form → Nat
  | .literal _ => 0
  | .array _ items => itemDepth items + 1
  | .object _ members => memberDepth members + 1

/-- How deep the items of an array nest. -/
def itemDepth : List (Pad × Form) → Nat
  | [] => 0
  | (_, f) :: items => max f.depth (itemDepth items)

/-- How deep the members of an object nest. -/
def memberDepth : List (Label × Form) → Nat
  | [] => 0
  | (_, f) :: members => max f.depth (memberDepth members)

end

/-! ### What a form denotes -/

/-- The last of some named things that has a given name. -/
def last? {α : Type} (ms : List (String × α)) (name : String) : Option (String × α) :=
  ms.reverse.find? fun m => m.1 = name

/-- Named things without repeats: each name at the place where it comes first, with what it comes with
last. -/
def latest {α : Type} (ms : List (String × α)) : List (String × α) :=
  (ms.map (·.1)).eraseDups.filterMap (last? ms)

mutual

/-- The value that a form denotes. -/
def value : Form → Value
  | .literal l => .scalar l.scalar
  | .array _ items => .array (itemValues items)
  | .object _ members => .object (latest (memberValues members))

/-- The values of the items of an array. -/
def itemValues : List (Pad × Form) → List Value
  | [] => []
  | (_, f) :: items => f.value :: itemValues items

/-- The named values of all members of an object. -/
def memberValues : List (Label × Form) → List (String × Value)
  | [] => []
  | (label, f) :: members => (label.name, f.value) :: memberValues members

end

mutual

/-- The node of a form that stands at the offset `start`. -/
def node (start : Nat) : Form → Node
  | .literal l => .scalar ⟨start, start + byteLength l.chars⟩ l.scalar
  | .array gap items =>
    .array ⟨start, start + byteLength (chars (.array gap items))⟩
      (itemNodes (start + 1 + byteLength gap) items)
  | .object gap members =>
    .object ⟨start, start + byteLength (chars (.object gap members))⟩
      (Members.collapse (memberNodes (start + 1 + byteLength gap) members))

/-- The nodes of the items of an array, of which the first text starts at `start`. -/
def itemNodes (start : Nat) : List (Pad × Form) → List Node
  | [] => []
  | (pad, f) :: items =>
    f.node (start + byteLength pad.before) ::
      itemNodes (start + byteLength (pad.around f.chars) + 1) items

/-- The keys and nodes of all members of an object, of which the first text starts at `start`. -/
def memberNodes (start : Nat) : List (Label × Form) → List (Key × Node)
  | [] => []
  | (label, f) :: members =>
    let first := start + byteLength label.outer.before
    (⟨label.name, ⟨first, first + byteLength (enclosed label.raw)⟩⟩,
        f.node (first + byteLength label.front)) ::
      memberNodes (start + byteLength (label.outer.around (label.front ++ f.chars)) + 1) members

end

end Form

/-- The source is the form `f` with the blanks `pad` around it. -/
structure Derives (source : List Char) (pad : Pad) (f : Form) : Prop where
  source_eq : source = pad.around f.chars
  before : Blanks pad.before
  after : Blanks pad.after
  grammatical : f.Grammatical

end JsonSelect.Written
