/-! # The shortest decimal that reads back

A positive floating-point number is `m · 2 ^ q`. The reals that round to it form an interval around
it, whose ends belong to it when `m` is even. Among the decimals `d · 10 ^ k` in that interval the
ones with the largest `k` have the fewest digits; of those the nearest to the number is chosen, and
of two equally near the even one. All of it is computed with natural numbers.

* `Interval.ofFloat`: the number and its interval in units of `2 ^ exponent`.
* `Interval.hit?`: the decimal in the interval on the grid of multiples of `10 ^ k`, if any.
* `Interval.shortest`: the first hit on the grids from coarse to fine. -/

namespace JsonSelect

/-- A decimal `digits · 10 ^ exponent`. -/
structure Decimal where
  digits : Nat
  exponent : Int
deriving DecidableEq, Repr

/-- A positive number and the interval of reals that round to it, in units of `2 ^ exponent`. -/
structure Interval where
  low : Nat
  value : Nat
  high : Nat
  exponent : Int
  /-- Whether the ends of the interval round to the number as well. -/
  closed : Bool
deriving DecidableEq, Repr

/-- The interval of a positive finite floating-point number. The numbers below a power of two lie
twice as dense as those above it. -/
def Interval.ofFloat (x : Float) : Interval :=
  let bits := x.toBits.toNat
  let fraction := bits % Nat.pow 2 52
  let scale := bits / Nat.pow 2 52 % Nat.pow 2 11
  let m := if scale = 0 then fraction else fraction + Nat.pow 2 52
  let below := if fraction = 0 ∧ 1 < scale then 1 else 2
  ⟨4 * m - below, 4 * m, 4 * m + 2, ((max scale 1 : Nat) : Int) - 1077, m % 2 = 0⟩

/-- `b ^ e` for a positive exponent, and one otherwise. -/
def upPower (b : Nat) (e : Int) : Nat := b.pow e.toNat

/-- The two sides of the scale between the units of an interval and the grid of `10 ^ k`: the real
`v` units is `d` steps of the grid when `v · p = d · q`. -/
def Interval.scale (i : Interval) (k : Int) : Nat × Nat :=
  (upPower 2 i.exponent * upPower 10 (-k), upPower 10 k * upPower 2 (-i.exponent))

/-- Whether `d` steps of the grid of `10 ^ k` lie in the interval. -/
def Interval.holds (i : Interval) (k : Int) (d : Nat) : Bool :=
  let (p, q) := i.scale k
  if i.closed then i.low * p ≤ d * q && d * q ≤ i.high * p
  else i.low * p < d * q && d * q < i.high * p

/-- The distance of `d` steps of the grid from the number. -/
def Interval.distance (i : Interval) (k : Int) (d : Nat) : Nat :=
  let (p, q) := i.scale k
  (i.value * p - d * q) + (d * q - i.value * p)

/-- The neighbour of the number on the grid of `10 ^ k` that lies in the interval, the nearer one if
both do. -/
def Interval.hit? (i : Interval) (k : Int) : Option Nat :=
  let (p, q) := i.scale k
  let below := i.value * p / q
  let above := below + 1
  if i.holds k below then
    if i.holds k above then
      let b := i.distance k below
      let a := i.distance k above
      if b < a ∨ (b = a ∧ below % 2 = 0) then some below else some above
    else some below
  else if i.holds k above then some above
  else none

/-- The first hit on at most `steps + 1` grids from that of `10 ^ k` downwards. -/
def Interval.firstHit (i : Interval) : Nat → Int → Decimal
  | 0, k => ⟨(i.hit? k).getD 0, k⟩
  | steps + 1, k =>
    match i.hit? k with
    | some d => ⟨d, k⟩
    | none => firstHit i steps (k - 1)

/-- A power of ten above every number of the interval's exponent. -/
def Interval.coarsest (i : Interval) : Int := (i.exponent + 55) * 30103 / 100000 + 1

/-- The shortest decimal in the interval. A number of 53 bits needs at most 17 digits, and the
coarsest grid is at most 19 above the first digit. -/
def Interval.shortest (i : Interval) : Decimal := i.firstHit 40 i.coarsest

end JsonSelect
