import JsonSelect.Number.Basic

/-! # Number literals and what they denote

A literal is a sign, whole digits, and perhaps a fraction and an exponent. Without fraction and
exponent it denotes the integer itself if that fits 64 bits. Otherwise it denotes a floating-point
number, which is read in three steps:

* `Significand.ofDigits`: the digits are gathered into a 64-bit significand for as long as they fit,
  with the power of ten that makes up for the digits left out and for the decimal point;
* `saturate`: the written exponent is added within 32 bits;
* `scaled?`: the significand is multiplied or divided by a power of ten, in steps of at most 308.

The result is not always the nearest floating-point number: each step rounds on its own. -/

namespace JsonSelect

/-- The exponent of a number literal: its letter, its sign and its digits as they are written. -/
structure ExponentLiteral where
  letter : Char
  sign : Option Char
  digits : List Char
deriving DecidableEq, Repr

/-- A number literal as it is written, cut into its parts. -/
structure NumberLiteral where
  negative : Bool
  whole : List Char
  fraction : Option (List Char)
  exponent : Option ExponentLiteral
deriving DecidableEq, Repr

/-- The characters of an exponent. -/
def ExponentLiteral.chars (e : ExponentLiteral) : List Char :=
  e.letter :: (e.sign.toList ++ e.digits)

/-- The characters of a number literal. -/
def NumberLiteral.chars (l : NumberLiteral) : List Char :=
  (if l.negative then ['-'] else []) ++ l.whole ++
    (l.fraction.elim [] ('.' :: ·)) ++ (l.exponent.elim [] ExponentLiteral.chars)

/-- The value of a decimal digit. -/
def digitValue (c : Char) : Nat := c.toNat - '0'.toNat

/-- The number that decimal digits denote. -/
def digitsValue (cs : List Char) : Nat := cs.foldl (fun n c => n * 10 + digitValue c) 0

/-! ### The significand -/

/-- The gathered digits: `value · 10 ^ exponent`. -/
structure Significand where
  value : Nat
  exponent : Int
deriving DecidableEq, Repr

/-- Gathers whole digits while the value fits 64 bits; each digit after that adds one to the
exponent. -/
def Significand.addWhole (s : Significand) : List Char → Significand
  | [] => s
  | c :: cs =>
    let value := s.value * 10 + digitValue c
    if value < Nat.pow 2 64 then addWhole ⟨value, s.exponent⟩ cs
    else ⟨s.value, s.exponent + (cs.length + 1)⟩

/-- Gathers fraction digits while the value fits 64 bits; the digits after that are dropped. -/
def Significand.addFraction (s : Significand) : List Char → Significand
  | [] => s
  | c :: cs =>
    let value := s.value * 10 + digitValue c
    if value < Nat.pow 2 64 then addFraction ⟨value, s.exponent - 1⟩ cs else s

/-- The significand of whole digits and fraction digits. -/
def Significand.ofDigits (whole fraction : List Char) : Significand :=
  ((⟨0, 0⟩ : Significand).addWhole whole).addFraction fraction

/-! ### Scaling -/

/-- The nearest integer to `n` that fits 32 bits with a sign. -/
def saturate (n : Int) : Int := max (-(Int.pow 2 31)) (min n (Int.pow 2 31 - 1))

/-- The floating-point number nearest to a power of ten. -/
def powerOfTen (e : Nat) : Float := Float.ofScientific 1 false e

/-- Divides by `10 ^ e`, in steps of at most 308. -/
def scaledDown (f : Float) (e : Nat) : Float :=
  if e ≤ 308 then f / powerOfTen e
  else if f == 0 then f
  else scaledDown (f / powerOfTen 308) (e - 308)
termination_by e

/-- `f · 10 ^ e`, unless that is too large for a floating-point number. -/
def scaled? (f : Float) (e : Int) : Option Float :=
  if e < 0 then some (scaledDown f e.natAbs)
  else if e ≤ 308 then
    let g := f * powerOfTen e.natAbs
    if g.isInf then none else some g
  else if f == 0 then some f
  else none

/-! ### The number of a literal -/

/-- The magnitude of a literal with a fraction, an exponent or too many digits. An exponent of more
than 31 bits gives zero if it is negative or the digits are all zero. -/
def NumberLiteral.magnitude? (l : NumberLiteral) : Option Float :=
  let s := Significand.ofDigits l.whole (l.fraction.getD [])
  let f := (UInt64.ofNat s.value).toFloat
  match l.exponent with
  | none => scaled? f s.exponent
  | some e =>
    let n := digitsValue e.digits
    let down := e.sign = some '-'
    if n < Nat.pow 2 31 then scaled? f (saturate (if down then s.exponent - n else s.exponent + n))
    else if s.value = 0 || down then some 0
    else none

/-- The integer of a literal without fraction and exponent. The negative zero is no integer. -/
def NumberLiteral.integer? (l : NumberLiteral) : Option Int :=
  if l.fraction.isSome || l.exponent.isSome then none
  else
    let n := digitsValue l.whole
    if l.negative && n = 0 then none
    else
      let i : Int := if l.negative then -(n : Int) else n
      if fitsWord i then some i else none

/-- The number that a literal denotes; `none` if it is too large for a floating-point number. -/
def NumberLiteral.number? (l : NumberLiteral) : Option Number :=
  match l.integer? with
  | some i => some (.integer i)
  | none => l.magnitude?.map fun f => .float (if l.negative then -f else f)

end JsonSelect
