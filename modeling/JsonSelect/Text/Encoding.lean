/-! # Encoded text

Files and streams hold bytes; text is encoded in them as UTF-8. A character is encoded by one leading
byte and up to three that follow it, each from a range that the leading byte decides. Bytes that encode
no text are told by the first character that fails: where it starts, and how many of its bytes had
fitted.

* `followers?`: the ranges of the bytes behind a leading byte.
* `faultFrom`: the first fault, with the bytes read one by one.
* `ofBytes`: the text, or the fault. -/

namespace JsonSelect.Text

/-- Where bytes stop encoding text. -/
structure EncodingFault where
  /-- How many bytes in front of the fault encode text. -/
  index : Nat
  /-- How many bytes belong to the fault; none if a character is cut off by the end. -/
  length : Option Nat
deriving DecidableEq, Repr

/-- The wording of a fault. -/
def EncodingFault.message (e : EncodingFault) : String :=
  match e.length with
  | some n => s!"invalid utf-8 sequence of {n} bytes from index {e.index}"
  | none => s!"incomplete utf-8 byte sequence from index {e.index}"

/-- The ranges of the bytes behind a leading byte. -/
def followers? (byte : Nat) : Option (List (Nat × Nat)) :=
  let any := (0x80, 0xBF)
  if byte < 0x80 then some []
  else if byte < 0xC2 then none
  else if byte < 0xE0 then some [any]
  else if byte = 0xE0 then some [(0xA0, 0xBF), any]
  else if byte = 0xED then some [(0x80, 0x9F), any]
  else if byte < 0xF0 then some [any, any]
  else if byte = 0xF0 then some [(0x90, 0xBF), any, any]
  else if byte < 0xF4 then some [any, any, any]
  else if byte = 0xF4 then some [(0x80, 0x8F), any, any]
  else none

/-- The first fault of bytes behind a character begun at `start`, of which `seen` bytes are read and
bytes in the ranges `expected` are to come. -/
def faultFrom (start seen : Nat) (expected : List (Nat × Nat)) : List UInt8 → Option EncodingFault
  | [] => if expected.isEmpty then none else some ⟨start, none⟩
  | b :: bs =>
    match expected with
    | [] =>
      match followers? b.toNat with
      | none => some ⟨start, some 1⟩
      | some [] => faultFrom (start + 1) 0 [] bs
      | some ranges => faultFrom start 1 ranges bs
    | range :: ranges =>
      if range.1 ≤ b.toNat && b.toNat ≤ range.2 then
        if ranges.isEmpty then faultFrom (start + seen + 1) 0 [] bs
        else faultFrom start (seen + 1) ranges bs
      else some ⟨start, some seen⟩

/-- The first fault of bytes. -/
def fault? (bytes : List UInt8) : Option EncodingFault := faultFrom 0 0 [] bytes

/-- The text that bytes encode. -/
def ofBytes (bytes : ByteArray) : Except EncodingFault String :=
  match String.fromUTF8? bytes with
  | some s => .ok s
  | none => .error ((fault? bytes.data.toList).getD ⟨0, none⟩)

/-- The text that is told where bytes encode none and it does not matter why. -/
def notText : String := "stream did not contain valid UTF-8"

end JsonSelect.Text
