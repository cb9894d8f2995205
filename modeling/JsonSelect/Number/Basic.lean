/-! # Numbers

A number of a document is an integer or a floating-point number. Integers are those that fit 64 bits,
with or without a sign; everything else, and the negative zero, is a binary floating-point number of
double precision. -/

namespace JsonSelect

/-- A number of a document. -/
inductive Number where
  /-- An integer from -2^63 to 2^64 - 1. -/
  | integer (n : Int)
  /-- A finite floating-point number. -/
  | float (x : Float)
deriving DecidableEq, Repr

/-- An integer that some 64-bit word holds. -/
def fitsWord (n : Int) : Bool := -(Int.pow 2 63) ≤ n && n < Int.pow 2 64

end JsonSelect
