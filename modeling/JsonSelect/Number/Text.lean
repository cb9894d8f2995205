import JsonSelect.Number.Basic
import JsonSelect.Number.Shortest

/-! # Numbers as text

Integers are written in decimal. Floating-point numbers are written with the fewest digits that read
back, always with a decimal point or an exponent: positionally while the first digit stands between
the fifth place after the point and the sixteenth before it, in scientific notation elsewhere. -/

namespace JsonSelect

/-- The decimal digits of a natural number. -/
def decimalChars (n : Nat) : List Char := Nat.toDigits 10 n

/-- Digits `ds`, the first of which stands for units of `10 ^ e`, with a decimal point. -/
def positional (ds : List Char) (e : Int) : List Char :=
  if e < 0 then '0' :: '.' :: (List.replicate (-e - 1).toNat '0' ++ ds)
  else
    let places := e.toNat + 1
    let fraction := ds.drop places
    ds.take places ++ List.replicate (places - ds.length) '0' ++
      '.' :: (if fraction.isEmpty then ['0'] else fraction)

/-- Digits `ds`, the first of which stands for units of `10 ^ e`, with an exponent. -/
def scientific (ds : List Char) (e : Int) : List Char :=
  let fraction := ds.drop 1
  ds.take 1 ++ (if fraction.isEmpty then [] else '.' :: fraction) ++
    'e' :: (if e < 0 then '-' else '+') :: decimalChars e.natAbs

/-- A positive decimal as text. -/
def Decimal.chars (d : Decimal) : List Char :=
  let ds := decimalChars d.digits
  let e := d.exponent + (ds.length - 1 : Int)
  if -5 ≤ e ∧ e < 16 then positional ds e else scientific ds e

/-- A finite floating-point number as text. -/
def floatChars (x : Float) : List Char :=
  let negative := Nat.pow 2 63 ≤ x.toBits.toNat
  (if negative then ['-'] else []) ++
    (if x == 0 then "0.0".toList else (Interval.ofFloat x).shortest.chars)

/-- An integer as text. -/
def integerChars (n : Int) : List Char :=
  (if n < 0 then ['-'] else []) ++ decimalChars n.natAbs

/-- A number as text. -/
def Number.chars : Number → List Char
  | .integer n => integerChars n
  | .float x => floatChars x

end JsonSelect
