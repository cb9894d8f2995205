import JsonSelect.Proofs.Reading.Values
import JsonSelect.Proofs.Written.Integers

/-! # Typed words

What the words of a line are (`words_cons_blank`), and that trimming leaves a word where there are only blanks
around it (`trim_eq_iff`). A number is a word of digits. -/

namespace JsonSelect.Text

open Written

/-! ### Words -/

/-- What can stand as a word: some characters, none of them blank. -/
def IsWord (w : List Char) : Prop := w ≠ [] ∧ ∀ c ∈ w, isBlank c = false

instance (w : List Char) : Decidable (IsWord w) := inferInstanceAs (Decidable (_ ∧ _))

variable {cs w left right : List Char}

/-- Characters that are not blank belong to the word that is begun. -/
theorem wordsFrom_append (h : ∀ c ∈ w, isBlank c = false) (begun cs : List Char) :
    wordsFrom begun (w ++ cs) = wordsFrom (w.reverse ++ begun) cs := by
  induction w generalizing begun with
  | nil => rfl
  | cons c w ih =>
    obtain ⟨hc, hw⟩ := List.forall_mem_cons.mp h
    have hc : ¬ isBlank c = true := by rw [hc]; decide
    rw [List.cons_append, wordsFrom, if_neg hc, ih hw, List.reverse_cons, List.append_assoc,
      List.singleton_append]

theorem isEmpty_reverse (h : IsWord w) : ¬ (w.reverse ++ []).isEmpty = true := by
  rw [List.append_nil, List.isEmpty_iff, List.reverse_eq_nil_iff]
  exact h.1

theorem words_word (h : IsWord w) : words w = [w] := by
  have hw := wordsFrom_append h.2 [] []
  rw [List.append_nil] at hw
  rw [words, hw, wordsFrom, if_neg (isEmpty_reverse h), List.append_nil, List.reverse_reverse]

/-- A blank ends a word. -/
theorem words_cons_blank (h : IsWord w) {b : Char} (hb : isBlank b = true) (cs : List Char) :
    words (w ++ b :: cs) = w :: words cs := by
  rw [words, wordsFrom_append h.2, wordsFrom, if_pos hb, if_neg (isEmpty_reverse h), List.append_nil,
    List.reverse_reverse, words]

/-! ### Blanks at both ends -/

theorem isWord_reverse (h : IsWord w) : IsWord w.reverse :=
  ⟨mt List.reverse_eq_nil_iff.mp h.1, fun c hc => h.2 c (List.mem_reverse.mp hc)⟩

theorem dropWhile_append_word (hl : Blanks left) (hw : IsWord w) (right : List Char) :
    (left ++ w ++ right).dropWhile isBlank = w ++ right := by
  obtain ⟨c, w, rfl⟩ := List.exists_cons_of_ne_nil hw.1
  have hc : isBlank c = false := hw.2 c List.mem_cons_self
  rw [List.append_assoc, List.dropWhile_append_of_pos hl, List.cons_append, List.dropWhile_cons, hc,
    if_neg (by decide)]

theorem exists_trimEnd (cs : List Char) : ∃ right, cs = trimEnd cs ++ right ∧ Blanks right := by
  refine ⟨(cs.reverse.takeWhile isBlank).reverse, ?_, fun c hc => ?_⟩
  · rw [trimEnd, ← List.reverse_append, List.takeWhile_append_dropWhile, List.reverse_reverse]
  · exact List.all_eq_true.mp List.all_takeWhile c (List.mem_reverse.mp hc)

/-- **Trimming** leaves a word exactly where there are only blanks around it. -/
theorem trim_eq_iff (hw : IsWord w) :
    trim cs = w ↔ ∃ left right, cs = left ++ w ++ right ∧ Blanks left ∧ Blanks right := by
  constructor
  · rintro rfl
    obtain ⟨right, hcs, hright⟩ := exists_trimEnd (cs.dropWhile isBlank)
    refine ⟨cs.takeWhile isBlank, right, ?_, List.all_eq_true.mp List.all_takeWhile, hright⟩
    rw [trim, List.append_assoc, ← hcs, List.takeWhile_append_dropWhile]
  · rintro ⟨left, right, rfl, hleft, hright⟩
    have hreverse : Blanks right.reverse := fun c hc => hright c (List.mem_reverse.mp hc)
    have hend := dropWhile_append_word hreverse (isWord_reverse hw) []
    rw [List.append_nil, List.append_nil] at hend
    rw [trim, dropWhile_append_word hleft hw, trimEnd, List.reverse_append, hend, List.reverse_reverse]

/-! ### Numbers as words -/

theorem isWord_toDigits (n : Nat) : IsWord (Nat.toDigits 10 n) := by
  obtain ⟨hne, hdigits⟩ := digits_toDigits n
  exact ⟨hne, fun c hc => Reading.not_isBlank_of_isDigit (hdigits c hc)⟩

/-- Digits do not begin like an option. -/
theorem head_toDigits_append (n : Nat) (cs : List Char) : (Nat.toDigits 10 n ++ cs).head? ≠ some '-' := by
  obtain ⟨hne, hdigits⟩ := digits_toDigits n
  obtain ⟨d, ds, hd⟩ := List.exists_cons_of_ne_nil hne
  rw [hd] at hdigits ⊢
  rintro ⟨⟩
  exact absurd (hdigits '-' List.mem_cons_self) (by decide)

end JsonSelect.Text
