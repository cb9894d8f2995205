import JsonSelect.Number.Text
import JsonSelect.Proofs.Written.Form

/-! # Integer literals

A literal denotes an integer when it has neither a fraction nor an exponent, is no negative zero, and its
integer fits 64 bits (`number?_eq_integer`). The text of such an integer is a literal that denotes it
(`number?_integerLiteral`). -/

namespace JsonSelect

open Written

/-! ### Decimal digits -/

/-- The number of decimal digits, as two ways to fold them give it. -/
theorem digitsValue_toDigits (i : Nat) : digitsValue (Nat.toDigits 10 i) = i := by
  have h := Nat.ofDigitChars_ten_toDigits (n := i)
  unfold Nat.ofDigitChars at h
  unfold digitsValue digitValue
  simpa only [Nat.mul_comm] using h

theorem digits_toDigits (i : Nat) : Digits (Nat.toDigits 10 i) :=
  ⟨Nat.toDigits_ne_nil, fun _ hc => Nat.isDigit_of_mem_toDigits (by decide) (by decide) hc⟩

/-- The digits of a positive number do not start with a zero. -/
theorem head_toDigits {i : Nat} (h : 0 < i) : (Nat.toDigits 10 i).head? ≠ some '0' := by
  induction i using Nat.strongRecOn with
  | ind i ih =>
    by_cases hi : i < 10
    · have hsmall : ∀ i < 10, 0 < i → (Nat.toDigits 10 i).head? ≠ some '0' := by decide
      exact hsmall i hi h
    · rw [Nat.toDigits_of_base_le (by decide) (Nat.le_of_not_lt hi),
        List.head?_append, List.head?_eq_some_head Nat.toDigits_ne_nil, Option.some_or,
        ← List.head?_eq_some_head]
      exact ih (i / 10) (by omega) (by omega)

namespace Written

/-! ### Literals that denote integers -/

/-- The integer that the sign and the whole digits of a literal give. -/
def wholeValue (l : NumberLiteral) : Int :=
  if l.negative then -(digitsValue l.whole : Int) else digitsValue l.whole

/-- A literal without fraction and exponent, of an integer that fits 64 bits, and no negative zero. -/
structure IntegerLiteral (l : NumberLiteral) : Prop where
  fraction : l.fraction = none
  exponent : l.exponent = none
  nonzero : l.negative = true → digitsValue l.whole ≠ 0
  fits : fitsWord (wholeValue l) = true

theorem integer?_eq (l : NumberLiteral) : l.integer? =
    if l.fraction.isSome || l.exponent.isSome then none
    else if l.negative && digitsValue l.whole = 0 then none
    else if fitsWord (wholeValue l) then some (wholeValue l) else none := rfl

theorem integer?_eq_some {l : NumberLiteral} {i : Int} :
    l.integer? = some i ↔ IntegerLiteral l ∧ i = wholeValue l := by
  rw [integer?_eq]
  constructor
  · intro h
    split_ifs at h with hparts hzero hfits
    obtain rfl := Option.some.inj h
    simp only [Bool.or_eq_true, not_or, Option.not_isSome_iff_eq_none] at hparts
    exact ⟨⟨hparts.1, hparts.2, fun hn h0 => hzero (by simp [hn, h0]), hfits⟩, rfl⟩
  · rintro ⟨⟨hf, he, hz, hfits⟩, rfl⟩
    have hz : ¬ (l.negative && decide (digitsValue l.whole = 0)) = true := by simpa using hz
    rw [hf, he, if_neg (by simp), if_neg hz, if_pos hfits]

/-- **The literals of integers.** -/
theorem number?_eq_integer {l : NumberLiteral} {i : Int} :
    l.number? = some (.integer i) ↔ IntegerLiteral l ∧ i = wholeValue l := by
  rw [← integer?_eq_some, NumberLiteral.number?]
  cases l.integer? <;> simp

/-! ### The literal of an integer -/

/-- The text of an integer as a literal. -/
def integerLiteral (i : Int) : NumberLiteral := ⟨i < 0, decimalChars i.natAbs, none, none⟩

theorem chars_integerLiteral (i : Int) : (integerLiteral i).chars = integerChars i := by
  simp [integerLiteral, NumberLiteral.chars, integerChars]

theorem grammatical_integerLiteral (i : Int) : GrammaticalNumber (integerLiteral i) where
  whole := by
    by_cases hi : i = 0
    · subst hi
      exact .inl rfl
    · exact .inr ⟨digits_toDigits _, head_toDigits (by omega)⟩
  fraction _ h := by cases h
  exponent _ h := by cases h

theorem wholeValue_integerLiteral (i : Int) : wholeValue (integerLiteral i) = i := by
  simp only [wholeValue, integerLiteral, decimalChars, digitsValue_toDigits, decide_eq_true_eq]
  split_ifs <;> omega

theorem number?_integerLiteral {i : Int} (h : fitsWord i = true) :
    (integerLiteral i).number? = some (.integer i) := by
  refine number?_eq_integer.mpr ⟨⟨rfl, rfl, fun hn => ?_, ?_⟩, (wholeValue_integerLiteral i).symm⟩
  · simp only [integerLiteral, decide_eq_true_eq] at hn
    simp only [integerLiteral, decimalChars, digitsValue_toDigits]
    omega
  · rwa [wholeValue_integerLiteral]

end Written

end JsonSelect
