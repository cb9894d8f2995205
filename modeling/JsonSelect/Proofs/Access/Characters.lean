import JsonSelect.Proofs.Painting

/-! # Characters of an expression

No character below U+0020 stands in an access expression (`Language.printable_expression`). From U+007F on it
is the other way round: quoting writes such a character as itself (`escaped_of_le`), and nothing else puts one
into an expression, since escapes, brackets, points and identifiers all come before it (`BeforeDelete`). So a
character from there on stands in an expression exactly if a segment of the path has it
(`mem_expression_iff_of_le`).

The control characters are on both sides of this border, and the line and the paragraph separator are behind
it. Which of them stand in an expression is `mem_expression_iff`: a next line in a key is not escaped, a line
feed is. -/

namespace JsonSelect

/-- Every character comes before U+007F. -/
def BeforeDelete (cs : List Char) : Prop := ∀ c ∈ cs, c.toNat < 0x7f

theorem beforeDelete_of_all {cs : List Char} (h : cs.all (·.toNat < 0x7f) = true) : BeforeDelete cs :=
  fun c hc => of_decide_eq_true (List.all_eq_true.mp h c hc)

theorem BeforeDelete.notMem {cs : List Char} {c : Char} (h : BeforeDelete cs) (hc : 0x7f ≤ c.toNat) :
    c ∉ cs := fun hmem => Nat.not_le.mpr (h c hmem) hc

namespace Text

variable {c : Char}

/-- The character is of the category of control characters. -/
def IsControl (c : Char) : Prop := c.toNat < 0x20 ∨ 0x7f ≤ c.toNat ∧ c.toNat < 0xa0

/-- The character is the line separator or the paragraph separator. -/
def IsSeparator (c : Char) : Prop := c = '\u2028' ∨ c = '\u2029'

/-! ### Quoted texts -/

theorem escaped_of_le (h : 0x7f ≤ c.toNat) : escaped c = [c] := by
  -- every character with an escape of its own comes before
  have hne : ∀ d : Char, d.toNat < 0x7f → c ≠ d := by
    rintro d hd rfl
    omega
  unfold escaped
  split_ifs with hc hc hc hc hc hc hc hlow
  iterate 7 exact absurd hc (hne _ (by decide))
  · omega
  · rfl

theorem beforeDelete_escaped (h : c.toNat < 0x7f) : BeforeDelete (escaped c) := by
  have hdigit : ∀ n < 0x10, (hexDigit n).toNat < 0x7f := by decide
  unfold escaped
  split_ifs with _ _ _ _ _ _ _ hlow
  iterate 7 exact beforeDelete_of_all (by decide)
  · have hdigits : (hexDigit (c.toNat / 16)).toNat < 0x7f ∧ (hexDigit (c.toNat % 16)).toNat < 0x7f :=
      ⟨hdigit _ (by omega), hdigit _ (by omega)⟩
    exact beforeDelete_of_all (by simp [hdigits])
  · exact List.forall_mem_singleton.mpr h

theorem mem_escaped_iff {d : Char} (h : 0x7f ≤ c.toNat) : c ∈ escaped d ↔ c = d := by
  by_cases hd : d.toNat < 0x7f
  · refine iff_of_false ((beforeDelete_escaped hd).notMem h) ?_
    rintro rfl
    omega
  · rw [escaped_of_le (Nat.not_lt.mp hd), List.mem_singleton]

/-- **A quoted text** has the characters from U+007F on that the text has. -/
theorem mem_quote_iff {s : String} (h : 0x7f ≤ c.toNat) : c ∈ (quote s).toList ↔ c ∈ s.toList := by
  have hmark : c ≠ '"' := by
    rintro rfl
    exact absurd h (by decide)
  rw [quote, String.toList_ofList, quoteChars]
  simp [mem_escaped_iff h, hmark]

end Text

open Text

variable {c : Char}

/-! ### Expressions -/

theorem beforeDelete_of_isIdentifier {s : String} (h : isIdentifier s = true) : BeforeDelete s.toList := by
  have hdigits : BeforeDelete "0123456789".toList := beforeDelete_of_all (by decide)
  intro c hc
  have hclasses := Reading.continuesIdentifier_of_mem h c hc
  simp only [continuesIdentifier, startsIdentifier, Bool.or_eq_true, decide_eq_true_eq] at hclasses
  rcases hclasses with ((hc | rfl) | rfl) | hc
  · exact (toNat_of_isAlpha hc).2
  · decide
  · decide
  · exact hdigits c (Reading.mem_of_isDigit hc)

/-- What stands around a segment comes before U+007F. -/
theorem Language.beforeDelete_access (l : Language) (s : String) :
    BeforeDelete (l.style.access s).before.toList ∧ BeforeDelete (l.style.access s).behind.toList := by
  rcases Reading.access_cases l s with ⟨quoted, -, h | h⟩ | ⟨h, -⟩ <;> simp only [h]
  all_goals exact ⟨beforeDelete_of_all (by decide), beforeDelete_of_all (by decide)⟩

/-- Quoted or not, a segment stands in what is appended for it with its characters from U+007F on. -/
theorem Language.mem_segment_iff (l : Language) (s : String) (h : 0x7f ≤ c.toNat) :
    c ∈ (l.style.segment s).toList ↔ c ∈ s.toList := by
  obtain ⟨hbefore, hbehind⟩ := l.beforeDelete_access s
  have hbetween : c ∈ (if (l.style.access s).quoted then quote s else s).toList ↔ c ∈ s.toList := by
    split
    · exact mem_quote_iff h
    · exact Iff.rfl
  rw [Style.segment, Reading.toList_access, List.mem_append, List.mem_append, hbetween]
  simp [hbefore.notMem h, hbehind.notMem h]

theorem Language.mem_expression_iff_of_le (l : Language) {receiver : String}
    (hr : isIdentifier receiver = true) (p : Path) (h : 0x7f ≤ c.toNat) :
    c ∈ (l.expression receiver p).toList ↔ ∃ s ∈ p, c ∈ s.toList := by
  have hreceiver : c ∉ receiver.toList := (beforeDelete_of_isIdentifier hr).notMem h
  rw [Reading.toList_expression, Reading.segments, List.mem_append, List.mem_flatMap]
  simp only [hreceiver, false_or, l.mem_segment_iff _ h]

/-- **Control characters and separators in an expression** are those of the path's segments from U+007F on,
as they are; the other control characters are escaped. -/
theorem Language.mem_expression_iff (l : Language) {receiver : String} (hr : isIdentifier receiver = true)
    (p : Path) {c : Char} (hc : IsControl c ∨ IsSeparator c) :
    c ∈ (l.expression receiver p).toList ↔ 0x7f ≤ c.toNat ∧ ∃ s ∈ p, c ∈ s.toList := by
  by_cases h : 0x7f ≤ c.toNat
  · rw [l.mem_expression_iff_of_le hr p h]
    exact (and_iff_right h).symm
  · have hlow : c.toNat < 0x20 := by
      rcases hc with (hc | hc) | rfl | rfl
      · exact hc
      · exact absurd hc.1 h
      · exact absurd (by decide) h
      · exact absurd (by decide) h
    have hnot := (l.printable_expression hr p).notMem hlow
    exact iff_of_false hnot fun hboth => h hboth.1

/-- A next line, which ends lines of C#, stands in the expression for a key that has one. -/
theorem Language.mem_expression_nextLine : isIdentifier "j" = true ∧ IsControl '\x85' ∧
    '\x85' ∈ (Language.csharp.expression "j" ["a\x85b"]).toList := by
  have hr : isIdentifier "j" = true := by decide
  have hc : IsControl '\x85' := .inr ⟨by decide, by decide⟩
  exact ⟨hr, hc, (Language.csharp.mem_expression_iff hr ["a\x85b"] (.inl hc)).mpr (by decide)⟩

end JsonSelect
