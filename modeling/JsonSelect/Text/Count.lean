/-! # Counts

A count is typed as decimal digits, perhaps behind a plus sign, and fits 64 bits. Digits are taken
from the left, so of two faults the one further left is told. -/

namespace JsonSelect.Text

/-- Why a text is no count. -/
inductive CountFault where
  | empty
  | invalidDigit
  | tooLarge
deriving DecidableEq, Repr

/-- The wording of a fault. -/
def CountFault.message : CountFault → String
  | .empty => "cannot parse integer from empty string"
  | .invalidDigit => "invalid digit found in string"
  | .tooLarge => "number too large to fit in target type"

/-- The largest count and one. -/
def countBound : Nat := Nat.pow 2 64

/-- The count of digits behind digits of the value `n`. -/
def countFrom (n : Nat) : List Char → Except CountFault Nat
  | [] => .ok n
  | c :: cs =>
    if c.isDigit then
      let n' := n * 10 + (c.toNat - '0'.toNat)
      if n' < countBound then countFrom n' cs else .error .tooLarge
    else .error .invalidDigit

/-- The count that a text denotes. -/
def count (cs : List Char) : Except CountFault Nat :=
  match cs with
  | [] => .error .empty
  | '+' :: [] => .error .invalidDigit
  | '+' :: c :: rest => countFrom 0 (c :: rest)
  | c :: rest => countFrom 0 (c :: rest)

end JsonSelect.Text
