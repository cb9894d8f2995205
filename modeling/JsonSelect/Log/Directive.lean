import JsonSelect.Log.Pattern
import JsonSelect.Text.Alphanumeric
import JsonSelect.Text.Blank
import JsonSelect.Text.Count

/-! # Log directives

A directive of a log filter is a level, or the beginning of the names of some parts of the program,
perhaps with a condition in brackets and with a level behind an equals sign. A condition names a span, a
field in braces or both. Blanks around a directive do not count when the places of its signs are found,
but what lies between two places is cut out of the text with these blanks. -/

namespace JsonSelect.Log

/-- A field that is asked for. -/
structure FieldTest where
  name : String
  /-- Whether the field has to have a certain value. -/
  hasValue : Bool
deriving DecidableEq, Repr

/-- One rule of a filter. -/
structure Directive where
  /-- The beginning of the names of the parts that are meant; all of them if there is none. -/
  target : Option String
  /-- The span that a record has to lie within. -/
  span : Option String
  /-- The field that a record has to have. -/
  field : Option FieldTest
  /-- The rank of the least important level that is written; zero if none is. -/
  rank : Nat
deriving DecidableEq, Repr

/-- The highest rank, which admits everything. -/
def topRank : Nat := 5

/-- The ranks that level names stand for. -/
def rankNames : List (String × Nat) :=
  [("off", 0), ("error", 1), ("warn", 2), ("info", 3), ("debug", 4), ("trace", topRank)]

/-- The rank that a level name or a number stands for. -/
def rank? (s : List Char) : Option Nat :=
  match Text.count s with
  | .ok n => if n ≤ topRank then some n else none
  | .error _ => (rankNames.find? (·.1 == String.ofList (s.map Char.toLower))).map (·.2)

namespace Directive

/-- What is being read of a directive, with the byte that it starts at. -/
inductive Stage where
  | start
  /-- A level or the beginning of names. -/
  | name (start : Nat)
  | span (start : Nat)
  | field (start : Nat)
  /-- Behind the braces around a field. -/
  | afterField
  /-- Behind the brackets around a condition. -/
  | afterCondition
  | level (start : Nat)
deriving DecidableEq, Repr

/-- Whether a directive may start with a character, if not with a bracket. -/
def isNameStart (c : Char) : Bool := c = '-' || c = ':' || c = '_' || Text.isAlphanumeric c

/-- The characters of a text, the first of which is at the byte `offset`, between two bytes. -/
def cut (start stop : Nat) (offset : Nat) : List Char → List Char
  | [] => []
  | c :: cs =>
    let more := cut start stop (offset + c.utf8Size) cs
    if start ≤ offset && offset < stop then c :: more else more

/-- The number of bytes of a text. -/
def byteCount (cs : List Char) : Nat := (cs.map Char.utf8Size).foldr (· + ·) 0

/-- A field in braces, perhaps with an equals sign and what asks for values behind it. -/
def fieldTest? (cs : List Char) : Option FieldTest :=
  let name := cs.takeWhile (· ≠ '=')
  let value := (cs.drop (name.length + 1)).takeWhile (· ≠ '=')
  if cs.isEmpty || !Pattern.isValue value then none
  else some ⟨String.ofList name, '=' ∈ cs⟩

/-- Reads the character `c` at the byte `here` of the text `whole`. -/
def step (whole : List Char) (here : Nat) (c : Char) (d : Directive) :
    Stage → Option (Directive × Stage)
  | .start =>
    if c = '[' then some (d, .span (here + 1))
    else if isNameStart c then some (d, .name here)
    else none
  | .name start =>
    let named := { d with target := some (String.ofList (cut start here 0 whole)) }
    if c = '=' then some (named, .level (here + 1))
    else if c = '[' then some (named, .span (here + 1))
    else some (d, .name start)
  | .span start =>
    let cs := cut start here 0 whole
    if c = ']' then some ({ d with span := some (String.ofList cs) }, .afterCondition)
    else if c = '\x7b' then
      let span := if cs.isEmpty then none else some (String.ofList cs)
      some ({ d with span }, .field (here + 1))
    else some (d, .span start)
  | .field start =>
    let cs := cut start here 0 whole
    if c ≠ '\x7d' then some (d, .field start)
    else (fieldTest? cs).map fun field => ({ d with field := some field }, .afterField)
  | .afterField => if c = ']' then some (d, .afterCondition) else none
  | .afterCondition => if c = '=' then some (d, .level (here + 1)) else none
  | .level start => some (d, .level start)

/-- Reads characters, the first of which is at the byte `here`. -/
def steps (whole : List Char) (here : Nat) (d : Directive) (stage : Stage) :
    List Char → Option (Directive × Stage)
  | [] => some (d, stage)
  | c :: cs => do
    let (d, stage) ← step whole here c d stage
    steps whole (here + c.utf8Size) d stage cs

/-- What has been read when the text `whole` ends. A name that is no level admits all levels. -/
def finish? (whole : List Char) (d : Directive) : Stage → Option Directive
  | .name start =>
    let cs := cut start (byteCount whole) 0 whole
    match rank? cs with
    | some rank => some { d with target := none, rank }
    | none => some { d with target := some (String.ofList cs), rank := topRank }
  | .level start =>
    let cs := cut start (byteCount whole) 0 whole
    if cs.isEmpty then some d else (rank? cs).map fun rank => { d with rank }
  | .afterCondition => some d
  | _ => none

/-- The directive that a text denotes. -/
def ofChars? (whole : List Char) : Option Directive := do
  let (d, stage) ← steps whole 0 ⟨none, none, none, topRank⟩ .start (Text.trim whole)
  finish? whole d stage

/-- Whether a directive can be decided by a record alone: it asks neither for a span nor for a value. -/
def isStatic (d : Directive) : Bool := d.span.isNone && !d.field.any (·.hasValue)

/-- How long the name is that a directive is for. -/
def reach (d : Directive) : Nat := d.target.elim 0 fun t => t.utf8ByteSize + 1

/-- Whether a directive asks for more than another one that is for the same parts: for a field, or for
one with a later name. -/
def asksMore (d e : Directive) : Bool :=
  match d.field, e.field with
  | some f, some g => g.name < f.name
  | some _, none => true
  | none, _ => false

/-- Of two directives that cover a record, the one that decides: that for the longer name, then the one
that asks for more, then the later one. -/
def closer (d e : Directive) : Directive :=
  if e.reach < d.reach || (e.reach = d.reach && d.asksMore e) then d else e

end Directive

end JsonSelect.Log
