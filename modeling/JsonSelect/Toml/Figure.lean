import JsonSelect.Number.Shortest
import JsonSelect.Toml.Item
import JsonSelect.Toml.Text

/-! # TOML numbers, dates and times

What starts with a digit or a sign is a date, a time of day, a floating-point number or an integer, and
is tried as each of these in turn. Single underscores may stand between digits. -/

namespace JsonSelect.Toml

namespace Reader

/-! ### Dates and times -/

/-- A number of two digits within bounds. -/
def pair (low high : Nat) : Reader Nat :=
  checking (fun digits =>
      let n := ofDigits 10 digits
      if low ≤ n && n ≤ high then .ok n else .error outOfRange)
    (takeExactly 2 Char.isDigit)

/-- How many days a month has. -/
def daysOf (year month : Nat) : Nat :=
  if month = 2 then if year % 4 = 0 && (year % 100 ≠ 0 || year % 400 = 0) then 29 else 28
  else if month = 4 || month = 6 || month = 9 || month = 11 then 30
  else 31

/-- A date. -/
def date : Reader Unit := do
  let year := ofDigits 10 (← takeExactly 4 Char.isDigit)
  require "-"
  committed do
    let month ← pair 1 12
    require "-"
    let start ← offset
    let day ← pair 1 31
    if daysOf year month < day then reject start outOfRange

/-- A time of day. -/
def time : Reader Unit := do
  let _ ← pair 0 23
  require ":"
  committed do
    let _ ← pair 0 59
    require ":"
    let _ ← pair 0 60
    let _ ← attempt do
      require "."
      takeSome Char.isDigit

/-- How far a time is from that of Greenwich. -/
def timeOffset : Reader Unit :=
  about "time offset" <|
    either (do let _ ← satisfying fun c => c = 'Z' || c = 'z') do
      let _ ← satisfying fun c => c = '+' || c = '-'
      committed do
        let _ ← pair 0 23
        require ":"
        let _ ← pair 0 59

/-- A date, perhaps with a time, or a time of day. -/
def moment : Reader Unit :=
  either
    (about "date-time" do
      date
      let _ ← attempt do
        let _ ← satisfying fun c => c = 'T' || c = 't' || c = ' '
        time
        attempt timeOffset)
    (about "time" time)

/-! ### Integers -/

/-- What stands where a digit is missing. -/
def digitName : String := "digit"

/-- More digits of a sort, perhaps with single underscores in front of them. -/
def moreDigits (isDigit : Char → Bool) : Reader (List Char) := do
  let pieces ← repeated <|
    either (takeSome isDigit) do
      require "_"
      return [← committed (expecting [digitName] (satisfying isDigit))]
  return pieces.flatten

/-- Digits of a sort with single underscores between them. -/
def digits (isDigit : Char → Bool) : Reader (List Char) := do
  let first ← satisfying isDigit
  return first :: (← moreDigits isDigit)

/-- A sign if there is one: whether it is that of a negative number. -/
def sign : Reader Bool := do
  if ← accept "-" then return true
  let _ ← accept "+"
  return false

/-- The sign and the digits of a decimal integer: no zero stands in front of other digits. -/
def wholeDigits : Reader (Bool × List Char) :=
  about "integer" do
    let negative ← sign
    if ← accept "0" then return (negative, ['0'])
    else return (negative, ← digits Char.isDigit)

/-- An integer in 64 bits, or why it is refused. -/
def signedWord (negative : Bool) (digits : Nat) : Except String Int :=
  if negative then
    if digits ≤ Nat.pow 2 63 then .ok (-digits) else .error "number too small to fit in target type"
  else if digits < Nat.pow 2 63 then .ok digits
  else .error "number too large to fit in target type"

/-- An integer behind the mark of its base, in digits of that base. -/
def basedInteger (mark subject : String) (base : Nat) (isDigit : Char → Bool) : Reader Int :=
  checking (fun cs => signedWord false (ofDigits base cs)) <|
    about subject do
      require mark
      digits isDigit

/-- An integer. -/
def integer : Reader Int := do
  if ← sees "0x" then committed (basedInteger "0x" "hexadecimal integer" 16 isHexDigit)
  else if ← sees "0o" then
    committed (basedInteger "0o" "octal integer" 8 fun c => '0' ≤ c && c ≤ '7')
  else if ← sees "0b" then
    committed (basedInteger "0b" "binary integer" 2 fun c => c = '0' || c = '1')
  else
    let start ← offset
    let (negative, cs) ← wholeDigits
    match signedWord negative (ofDigits 10 cs) with
    | .ok n => return n
    | .error cause => committed (reject start cause)

/-! ### Floating-point numbers -/

/-- The floating-point number nearest to a decimal; infinity above all of them. -/
def nearestFloat (digits : Nat) (exponent : Int) : Float :=
  let width := (Nat.toDigits 10 digits).length
  if digits = 0 || width + exponent < -400 then 0
  else if 400 < width + exponent then 1 / 0
  else Float.ofScientific digits (exponent < 0) exponent.natAbs

/-- The exponent of a floating-point number. -/
def exponent : Reader Int := do
  let _ ← satisfying fun c => c = 'e' || c = 'E'
  let negative ← sign
  let n := ofDigits 10 (← committed (digits Char.isDigit))
  return if negative then -n else n

/-- The digits behind the point of a floating-point number. -/
def places : Reader (List Char) := do
  require "."
  committed (expecting [digitName] (digits Char.isDigit))

/-- A floating-point number in digits: places behind the point, an exponent or both. Too large a
positive one is refused. -/
def digitFloat : Reader Float := do
  let start ← offset
  let (negative, whole) ← wholeDigits
  let (behind, shift) ←
    either (do return ([], ← exponent)) do
      let behind ← places
      return (behind, (← attempt exponent).getD 0)
  let x := nearestFloat (ofDigits 10 (whole ++ behind)) (shift - behind.length)
  if negative then return -x
  else if x.isInf then committed (failAt start)
  else return x

/-- Infinity, or what is not a number. -/
def namedFloat : Reader Float := do
  let negative ← sign
  let x ← either (do require "inf"; return 1 / 0) (do require "nan"; return 0 / 0)
  return if negative then -x else x

/-- A floating-point number. -/
def float : Reader Float := about "floating-point number" (either digitFloat namedFloat)

/-- A date, a time of day or a number. -/
def figure : Reader Scalar :=
  either (do moment; return .moment) <|
  either (do return .float (← float)) do
    return .integer (← integer)

end Reader

end JsonSelect.Toml
