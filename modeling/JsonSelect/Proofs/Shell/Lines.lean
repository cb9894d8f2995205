import JsonSelect.Proofs.Text.Parts
import JsonSelect.Shell.Run

/-! # The lines of a command text

An input is split into lines as bytes, and each line is decoded by itself. Where the input encodes a text,
this gives the lines of the text (`inputLines_toUTF8`), because the codes of line feeds and carriage returns
occur in the encoding of no other character. -/

namespace JsonSelect.Shell

open Text (lines)

/-- The lines of a command text. -/
def textLines (text : String) : List String := (lines '\n' '\r' text.toList).map String.ofList

/-- Whether a text has ended its last line. -/
def Ended (text : String) : Prop := text.toList = [] ∨ text.toList.getLast? = some '\n'

instance (text : String) : Decidable (Ended text) := inferInstanceAs (Decidable (_ ∨ _))

theorem textLines_append {a : String} (h : Ended a) (b : String) :
    textLines (a ++ b) = textLines a ++ textLines b := by
  rw [textLines, String.toList_append, Text.lines_append h, List.map_append]
  rfl

/-! ### Encoded characters -/

/-- A byte below 0x80 encodes the character with its number, and occurs in no other encoding. -/
theorem toNat_eq_of_mem_utf8EncodeChar {c : Char} {b : UInt8} (h : b ∈ String.utf8EncodeChar c)
    (hb : b.toNat < 0x80) : c.toNat = b.toNat := by
  have hbyte : ∀ n, b = UInt8.ofNat n → b.toNat = n % 256 := by
    rintro n rfl
    exact UInt8.toNat_ofNat'
  have hc : c.toNat = c.val.toNat := rfl
  unfold String.utf8EncodeChar at h
  dsimp only at h
  split at h
  · have := hbyte _ (List.mem_singleton.mp h)
    omega
  -- The encodings of two, three and four bytes have no byte below 0x80.
  split at h
  · simp only [List.mem_cons, List.not_mem_nil, or_false] at h
    rcases h with h | h <;> · have := hbyte _ h; omega
  split at h
  · simp only [List.mem_cons, List.not_mem_nil, or_false] at h
    rcases h with h | h | h <;> · have := hbyte _ h; omega
  · simp only [List.mem_cons, List.not_mem_nil, or_false] at h
    rcases h with h | h | h | h <;> · have := hbyte _ h; omega

theorem notMem_utf8EncodeChar {a c : Char} {b : UInt8} (ha : a.toNat = b.toNat) (hb : b.toNat < 0x80)
    (hne : c ≠ a) : b ∉ String.utf8EncodeChar c := by
  intro h
  have hc : c.toNat = a.toNat := (toNat_eq_of_mem_utf8EncodeChar h hb).trans ha.symm
  exact hne (Char.ext (UInt32.toNat_inj.mp hc))

/-! ### Encoded texts -/

/-- The bytes that characters are encoded by. -/
def encoded (cs : List Char) : List UInt8 := cs.flatMap String.utf8EncodeChar

theorem toList_toUTF8 (text : String) : text.toUTF8.data.toList = encoded text.toList := by
  have htext : text.toUTF8 = text.toList.utf8Encode := by
    rw [String.toUTF8_eq_toByteArray, ← String.toByteArray_ofList, String.ofList_toList]
  rw [htext, List.utf8Encode, List.toList_data_toByteArray, encoded]

theorem fromUTF8?_encoded (cs : List Char) :
    String.fromUTF8? ⟨(encoded cs).toArray⟩ = some (String.ofList cs) := by
  have hbytes : ⟨(encoded cs).toArray⟩ = (String.ofList cs).toByteArray := by
    refine ByteArray.ext (Array.toList_inj.mp ?_)
    rw [← String.toUTF8_eq_toByteArray, toList_toUTF8, String.toList_ofList]
  rw [hbytes, String.fromUTF8?, dif_pos (String.ofList cs).isValidUTF8]
  rfl

/-- **Lines of an encoded text** are the lines of the text, all of them texts. -/
theorem inputLines_toUTF8 (text : String) : inputLines text.toUTF8 = (textLines text).map some := by
  have hfeed : String.utf8EncodeChar '\n' = [10] := rfl
  have hreturn : String.utf8EncodeChar '\r' = [13] := rfl
  have hlines : lines 10 13 text.toUTF8.data.toList = (lines '\n' '\r' text.toList).map encoded := by
    rw [toList_toUTF8]
    refine Text.lines_flatMap_encode hfeed hreturn (fun c => ?_) (fun c => ?_) (fun c => ?_) _
    · exact notMem_utf8EncodeChar rfl (by decide)
    · exact notMem_utf8EncodeChar rfl (by decide)
    · exact String.utf8EncodeChar_ne_nil
  have hinput : inputLines text.toUTF8 =
      (lines 10 13 text.toUTF8.data.toList).map fun line => String.fromUTF8? ⟨line.toArray⟩ := rfl
  rw [hinput, hlines, List.map_map, textLines, List.map_map]
  exact List.map_congr_left fun cs _ => fromUTF8?_encoded cs

end JsonSelect.Shell
