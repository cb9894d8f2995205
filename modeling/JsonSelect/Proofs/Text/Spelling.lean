import JsonSelect.Proofs.Reading.Outcome
import JsonSelect.Text.Quoted
import Mathlib.Tactic.SplitIfs

/-! # How pieces are spelled

`Spells ps raw` is the grammar of the contents of a string literal: `raw` is a run of plain characters,
of backslashes with one of eight characters, and of backslashes with `u` and four hexadecimal digits, and
`ps` are its pieces.

* `pieces_of_spells`: where contents are followed by a quotation mark, `pieces` gives their pieces.
* `spells_pieces`: what `pieces` takes is spelled by the pieces that it gives.
* `spells_escaped`: the escapes of a text spell pieces, and these denote the text. -/

namespace JsonSelect.Text

/-- The contents `raw` of a string literal consist of the pieces `ps`. -/
inductive Spells : List Piece → List Char → Prop
  | nil : Spells [] []
  | plain {c : Char} {ps : List Piece} {raw : List Char} (hq : c ≠ '"') (hb : c ≠ '\\')
      (h : Spells ps raw) : Spells (.plain c :: ps) (c :: raw)
  | short {c : Char} {ps : List Piece} {raw : List Char} (hc : isShortEscape c = true)
      (h : Spells ps raw) : Spells (.short c :: ps) ('\\' :: c :: raw)
  | unicode {h₁ h₂ h₃ h₄ : Char} {unit : Nat} {ps : List Piece} {raw : List Char}
      (hu : unitOf? h₁ h₂ h₃ h₄ = some unit) (h : Spells ps raw) :
      Spells (.unicode unit :: ps) ('\\' :: 'u' :: h₁ :: h₂ :: h₃ :: h₄ :: raw)

/-- What the contents of a string literal denote, or why they denote nothing. -/
def meaning (raw : List Char) : Except LiteralError (List Char) := decode (pieces raw).1

/-! ### Pieces of a spelling -/

/-- The characters that end the contents of a string literal. -/
def EndsContents (rest : List Char) : Prop := rest = [] ∨ rest.head? = some '"'

theorem pieces_end {rest : List Char} (h : EndsContents rest) : pieces rest = ([], rest) := by
  rcases h with rfl | h
  · rfl
  · cases rest with
    | nil => cases h
    | cons c cs =>
      obtain rfl : c = '"' := by simpa using h
      rw [pieces.eq_def]
      rfl

theorem pieces_plain {c : Char} (hq : c ≠ '"') (hb : c ≠ '\\') (cs : List Char) :
    pieces (c :: cs) = (.plain c :: (pieces cs).1, (pieces cs).2) := by
  rw [pieces.eq_def]
  simp only [if_neg hq, if_neg hb]

theorem pieces_short {c : Char} (hc : isShortEscape c = true) (cs : List Char) :
    pieces ('\\' :: c :: cs) = (.short c :: (pieces cs).1, (pieces cs).2) := by
  have hu : ∀ h₁ h₂ h₃ h₄ rest, c = 'u' → cs = h₁ :: h₂ :: h₃ :: h₄ :: rest → False := by
    rintro _ _ _ _ _ rfl
    exact absurd hc (by decide)
  rw [pieces.eq_3 _ _ _ hu, if_neg (by decide), if_pos rfl, if_pos hc]

theorem pieces_unicode {h₁ h₂ h₃ h₄ : Char} {unit : Nat} (hu : unitOf? h₁ h₂ h₃ h₄ = some unit)
    (cs : List Char) : pieces ('\\' :: 'u' :: h₁ :: h₂ :: h₃ :: h₄ :: cs) =
      (.unicode unit :: (pieces cs).1, (pieces cs).2) := by
  rw [pieces.eq_2, if_neg (by decide), if_pos rfl, hu]

/-- **Contents that end are read to their end.** -/
theorem pieces_of_spells {ps : List Piece} {raw rest : List Char} (h : Spells ps raw)
    (hr : EndsContents rest) : pieces (raw ++ rest) = (ps, rest) := by
  induction h with
  | nil => exact pieces_end hr
  | plain hq hb _ ih => rw [List.cons_append, pieces_plain hq hb, ih]
  | short hc _ ih => rw [List.cons_append, List.cons_append, pieces_short hc, ih]
  | unicode hu _ ih =>
    simp only [List.cons_append]
    rw [pieces_unicode hu, ih]

/-- What contents denote is what their pieces denote. -/
theorem meaning_of_spells {ps : List Piece} {raw : List Char} (h : Spells ps raw) :
    meaning raw = decode ps := by
  have hp := pieces_of_spells h (.inl rfl)
  rw [List.append_nil] at hp
  rw [meaning, hp]

/-- **What is read as pieces is spelled by them.** -/
theorem spells_pieces (cs : List Char) :
    ∃ raw, cs = raw ++ (pieces cs).2 ∧ Spells (pieces cs).1 raw := by
  fun_induction pieces cs with
  | case1 => exact ⟨[], rfl, .nil⟩
  | case2 rest => exact ⟨[], rfl, .nil⟩
  | case3 h₁ h₂ h₃ h₄ rest unit hu ps after hp _ ih =>
    obtain ⟨raw, he, hs⟩ := ih
    rw [hp] at he hs
    exact ⟨_, by rw [he]; rfl, .unicode hu hs⟩
  | case4 => exact ⟨[], rfl, .nil⟩
  | case5 letter rest _ hl ps after hp _ ih =>
    obtain ⟨raw, he, hs⟩ := ih
    rw [hp] at he hs
    exact ⟨_, by rw [he]; rfl, .short hl hs⟩
  | case6 => exact ⟨[], rfl, .nil⟩
  | case7 => exact ⟨[], rfl, .nil⟩
  | case8 c rest hq hb ps after hp ih =>
    obtain ⟨raw, he, hs⟩ := ih
    rw [hp] at he hs
    exact ⟨_, by rw [he]; rfl, .plain hq hb hs⟩

/-! ### Sizes -/

theorem utf8Size_of_isShortEscape {c : Char} (h : isShortEscape c = true) : c.utf8Size = 1 := by
  have hm : c ∈ "\\/\"bfnrt".toList := by simpa [isShortEscape] using h
  have hs : ("\\/\"bfnrt".toList.all fun d => d.utf8Size == 1) = true := by decide
  simpa using List.all_eq_true.mp hs c hm

theorem mem_of_hexValue {c : Char} {n : Nat} (h : hexValue? c = some n) :
    c ∈ "0123456789abcdefABCDEF".toList := by
  have hc : c ≤ '9' ∨ c ≤ 'f' ∨ c ≤ 'F' := by
    unfold hexValue? at h
    split at h
    · next hd => exact .inl hd.2
    · split at h
      · next hd => exact .inr (.inl hd.2)
      · split at h
        · next hd => exact .inr (.inr hd.2)
        · cases h
  have hn : c.toNat < 103 := by
    rcases hc with hc | hc | hc <;>
    · have := UInt32.le_iff_toNat_le.mp hc
      exact Nat.lt_of_le_of_lt this (by decide)
  have hm : ∀ n < 103, (hexValue? (Char.ofNat n)).isSome →
      Char.ofNat n ∈ "0123456789abcdefABCDEF".toList := by decide
  have := hm c.toNat hn
  rw [Char.ofNat_toNat, h] at this
  exact this rfl

/-- What is true of all hexadecimal digits is true of the four digits of a code unit. -/
theorem forall_of_unitOf {P : Char → Prop} (hP : ∀ c ∈ "0123456789abcdefABCDEF".toList, P c)
    {h₁ h₂ h₃ h₄ : Char} {unit : Nat} (h : unitOf? h₁ h₂ h₃ h₄ = some unit) :
    P h₁ ∧ P h₂ ∧ P h₃ ∧ P h₄ := by
  simp only [unitOf?, Option.bind_eq_bind, Option.bind_eq_some_iff] at h
  obtain ⟨_, h₁, _, h₂, _, h₃, _, h₄, -⟩ := h
  exact ⟨hP _ (mem_of_hexValue h₁), hP _ (mem_of_hexValue h₂), hP _ (mem_of_hexValue h₃),
    hP _ (mem_of_hexValue h₄)⟩

theorem utf8Size_of_unitOf {h₁ h₂ h₃ h₄ : Char} {unit : Nat} (h : unitOf? h₁ h₂ h₃ h₄ = some unit) :
    h₁.utf8Size = 1 ∧ h₂.utf8Size = 1 ∧ h₃.utf8Size = 1 ∧ h₄.utf8Size = 1 := by
  have hs : ("0123456789abcdefABCDEF".toList.all fun d => d.utf8Size == 1) = true := by decide
  exact forall_of_unitOf (fun c hc => by simpa using List.all_eq_true.mp hs c hc) h

open Reading in
/-- The pieces of a spelling are as long as it is. -/
theorem byteLength_of_spells {ps : List Piece} {raw : List Char} (h : Spells ps raw) :
    byteLength raw = Piece.sizes ps := by
  induction h with
  | nil => rfl
  | plain _ _ _ ih => rw [byteLength_cons, ih, Piece.sizes, Piece.size]
  | short hc _ ih =>
    have hb : ('\\' : Char).utf8Size = 1 := rfl
    have hl := utf8Size_of_isShortEscape hc
    simp only [byteLength_cons, Piece.sizes, Piece.size, ih, hb, hl]
    omega
  | unicode hu _ ih =>
    have hb : ('\\' : Char).utf8Size = 1 := rfl
    have hl : ('u' : Char).utf8Size = 1 := rfl
    obtain ⟨h₁, h₂, h₃, h₄⟩ := utf8Size_of_unitOf hu
    simp only [byteLength_cons, Piece.sizes, Piece.size, ih, hb, hl, h₁, h₂, h₃, h₄]
    omega

/-! ### Escapes -/

/-- The piece that a character is escaped as. -/
def escapedPiece (c : Char) : Piece :=
  if c = '"' then .short '"'
  else if c = '\\' then .short '\\'
  else if c = '\x08' then .short 'b'
  else if c = '\x0c' then .short 'f'
  else if c = '\n' then .short 'n'
  else if c = '\r' then .short 'r'
  else if c = '\t' then .short 't'
  else if c.toNat < 0x20 then .unicode c.toNat
  else .plain c

/-- Four hexadecimal digits spell every control character. -/
theorem unitOf_control : ∀ n < 0x20, unitOf? '0' '0' (hexDigit (n / 16)) (hexDigit (n % 16)) = some n := by
  decide

theorem spells_escapedPiece (c : Char) {ps : List Piece} {raw : List Char} (h : Spells ps raw) :
    Spells (escapedPiece c :: ps) (escaped c ++ raw) := by
  unfold escapedPiece escaped
  split_ifs with hq hb _ _ _ _ _ hc
  iterate 7 exact .short (by decide) h
  · exact .unicode (unitOf_control _ hc) h
  · exact .plain hq hb h

theorem decodeFrom_short (letter : Char) {ps : List Piece} {cs : List Char}
    (h : ∀ column, decodeFrom column ps = .ok cs) (column : Nat) :
    decodeFrom column (.short letter :: ps) = .ok (shortMeaning letter :: cs) := by
  rw [decodeFrom, h]
  rfl

theorem decodeFrom_control {n : Nat} (hn : n < 0x20) {ps : List Piece} {cs : List Char}
    (h : ∀ column, decodeFrom column ps = .ok cs) (column : Nat) :
    decodeFrom column (.unicode n :: ps) = .ok (Char.ofNat n :: cs) := by
  have ht : isTrailing n = false := by
    simp only [isTrailing, Bool.and_eq_false_iff, decide_eq_false_iff_not]
    omega
  have hl : isLeading n = false := by
    simp only [isLeading, Bool.and_eq_false_iff, decide_eq_false_iff_not]
    omega
  rw [decodeFrom.eq_def]
  simp only [ht, hl, h]
  rfl

theorem decodeFrom_escapedPiece (c : Char) {ps : List Piece} {cs : List Char}
    (h : ∀ column, decodeFrom column ps = .ok cs) (column : Nat) :
    decodeFrom column (escapedPiece c :: ps) = .ok (c :: cs) := by
  unfold escapedPiece
  split_ifs with hq hb h₁ h₂ h₃ h₄ h₅ hc
  · rw [decodeFrom_short _ h, hq]; rfl
  · rw [decodeFrom_short _ h, hb]; rfl
  · rw [decodeFrom_short _ h, h₁]; rfl
  · rw [decodeFrom_short _ h, h₂]; rfl
  · rw [decodeFrom_short _ h, h₃]; rfl
  · rw [decodeFrom_short _ h, h₄]; rfl
  · rw [decodeFrom_short _ h, h₅]; rfl
  · rw [decodeFrom_control hc h, Char.ofNat_toNat]
  · rw [decodeFrom, if_neg hc, h]; rfl

theorem spells_escaped (cs : List Char) :
    Spells (cs.map escapedPiece) (cs.flatMap escaped) := by
  induction cs with
  | nil => exact .nil
  | cons c cs ih => exact spells_escapedPiece c ih

theorem decodeFrom_escaped (cs : List Char) (column : Nat) :
    decodeFrom column (cs.map escapedPiece) = .ok cs := by
  induction cs generalizing column with
  | nil => rfl
  | cons c cs ih => exact decodeFrom_escapedPiece c ih column

/-- **The escapes of a text denote the text.** -/
theorem meaning_escaped (cs : List Char) : meaning (cs.flatMap escaped) = .ok cs := by
  rw [meaning_of_spells (spells_escaped cs), decode, decodeFrom_escaped]

end JsonSelect.Text
