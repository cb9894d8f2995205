import JsonSelect.Number.Text
import JsonSelect.Text.Inspect
import JsonSelect.Toml.Document

/-! # Reading out TOML items

An item of the wrong sort is told with what it is and what was expected in its place. -/

namespace JsonSelect.Toml

/-- A positive decimal with a decimal point, however many digits that takes. -/
def plainDecimal (d : Decimal) : List Char :=
  let ds := decimalChars d.digits
  positional ds (d.exponent + (ds.length - 1 : Int))

/-- A floating-point number with a decimal point, or its name. -/
def floatText (x : Float) : String :=
  if x.isNaN then "NaN"
  else
    let sign := if Nat.pow 2 63 ≤ x.toBits.toNat then "-" else ""
    if x.isInf then sign ++ "inf"
    else if x == 0 then sign ++ "0.0"
    else sign ++ String.ofList (plainDecimal (Interval.ofFloat x).shortest)

/-- What an item is, where something else was expected. -/
def Item.description : Item → String
  | .scalar _ (.text s) => "string " ++ Text.inspect s
  | .scalar _ (.integer n) => s!"integer `{n}`"
  | .scalar _ (.float x) => s!"floating point `{floatText x}`"
  | .scalar _ (.boolean true) => "boolean `true`"
  | .scalar _ (.boolean false) => "boolean `false`"
  | .scalar _ .moment => "map"
  | .array _ _ => "sequence"
  | .table _ _ _ => "map"
  | .tables _ _ => "sequence"

/-- An item under a key, or the fault that it is something else than `expected`. -/
def unfit (key : Key) (item : Item) (expected : String) : Fault :=
  ⟨item.span?.getD key.span, s!"invalid type: {item.description}, expected {expected}"⟩

/-- The text that an item has to be. -/
def asText (key : Key) : Item → Except Fault String
  | .scalar _ (.text s) => .ok s
  | item => .error (unfit key item "a string")

/-- The truth value that an item has to be. -/
def asBoolean (key : Key) : Item → Except Fault Bool
  | .scalar _ (.boolean b) => .ok b
  | item => .error (unfit key item "a boolean")

/-- The choice that an item names: a text, or a table with the name as its only key and nothing under
it. `choose` gives the choice of a name, or what is wrong with the name. -/
def asChoice {α : Type} (choose : String → Except String α) (key : Key) (item : Item) :
    Except Fault α :=
  let span := item.span?.getD key.span
  let named (name : String) (span : Span) : Except Fault α :=
    match choose name with
    | .ok a => .ok a
    | .error message => .error ⟨span, message⟩
  match item with
  | .scalar _ (.text s) => named s span
  | .table _ _ [] => .error ⟨span, "wanted exactly 1 element, found 0 elements"⟩
  | .table _ _ [(inner, content)] => do
    let a ← named inner.name inner.span
    match content with
    | .array _ [] | .table _ _ [] => return a
    | .array _ _ | .table _ _ _ => throw ⟨content.span?.getD span, "expected empty table"⟩
    | .tables _ _ => throw ⟨content.span?.getD span, "expected empty array"⟩
    | .scalar _ _ =>
      throw ⟨content.span?.getD span, "expected table, found " ++ content.sortName⟩
  | .table _ _ _ => .error ⟨span, "wanted exactly 1 element, more than 1 element"⟩
  | _ => .error ⟨span, "wanted string or table"⟩

end JsonSelect.Toml
