import JsonSelect.Location
import JsonSelect.Proofs.Text.Words

/-! # Counts and locations as they are typed

A count is typed as digits, perhaps behind a plus sign (`Counts`), and it is read if it fits 64 bits, however
many zeros it starts with (`count_eq_ok`). A location is typed as two counts around a colon; each of them is
positive and may have blanks around it (`Location.TypedCount`). Nothing else is read as a location, and what a
location is shown as is one way to type it (`Location.read?_as_typed`). -/

namespace JsonSelect

open Written

namespace Text

variable {cs w : List Char} {n : Nat}

/-! ### Digits and signs -/

/-- The text `cs` types the number `n`: decimal digits, at least one, perhaps behind a plus sign. -/
inductive Counts : List Char → Nat → Prop
  | digits {ds : List Char} (h : Digits ds) : Counts ds (Nat.ofDigitChars 10 ds 0)
  | plus {ds : List Char} (h : Digits ds) : Counts ('+' :: ds) (Nat.ofDigitChars 10 ds 0)

theorem counts_plus : Counts ('+' :: cs) n ↔ Digits cs ∧ Nat.ofDigitChars 10 cs 0 = n := by
  constructor
  · rintro (h | h)
    · exact absurd (h.2 '+' List.mem_cons_self) (by decide)
    · exact ⟨h, rfl⟩
  · rintro ⟨h, rfl⟩
    exact .plus h

theorem counts_of_head (h : cs.head? ≠ some '+') :
    Counts cs n ↔ Digits cs ∧ Nat.ofDigitChars 10 cs 0 = n := by
  constructor
  · rintro (hd | hd)
    · exact ⟨hd, rfl⟩
    · exact absurd rfl h
  · rintro ⟨hd, rfl⟩
    exact .digits hd

theorem Counts.isWord (h : Counts w n) : IsWord w := by
  have hdigits : ∀ {ds}, Digits ds → ∀ c ∈ ds, isBlank c = false := fun hd c hc =>
    Reading.not_isBlank_of_isDigit (hd.2 c hc)
  cases h with
  | digits h => exact ⟨h.1, hdigits h⟩
  | plus h => exact ⟨List.cons_ne_nil _ _, List.forall_mem_cons.mpr ⟨by decide, hdigits h⟩⟩

/-! ### Counts -/

/-- Digits only make a number larger. -/
theorem le_ofDigitChars (ds : List Char) (n : Nat) : n ≤ Nat.ofDigitChars 10 ds n := by
  induction ds generalizing n with
  | nil => rw [Nat.ofDigitChars_nil]
  | cons d ds ih =>
    have hd := ih (10 * n + (d.toNat - '0'.toNat))
    rw [Nat.ofDigitChars_cons]
    omega

/-- The bound is checked at every digit. A number that fits at the last one has fitted at all of them. -/
theorem countFrom_eq_ok {m : Nat} (hn : n < countBound) : countFrom n cs = .ok m ↔
    (∀ c ∈ cs, c.isDigit = true) ∧ Nat.ofDigitChars 10 cs n = m ∧ m < countBound := by
  induction cs generalizing n with
  | nil =>
    rw [countFrom, Nat.ofDigitChars_nil]
    constructor
    · rintro ⟨⟩
      exact ⟨by simp, rfl, hn⟩
    · rintro ⟨-, rfl, -⟩
      rfl
  | cons c cs ih =>
    have hvalue : Nat.ofDigitChars 10 (c :: cs) n = Nat.ofDigitChars 10 cs (n * 10 + (c.toNat - '0'.toNat)) := by
      rw [Nat.ofDigitChars_cons, Nat.mul_comm]
    rw [hvalue, List.forall_mem_cons]
    simp only [countFrom]
    split_ifs with hdigit hfits
    · rw [ih hfits, and_iff_right hdigit]
    · refine iff_of_false (by simp) ?_
      rintro ⟨-, rfl, hm⟩
      exact hfits (Nat.lt_of_le_of_lt (le_ofDigitChars cs _) hm)
    · exact iff_of_false (by simp) fun h => hdigit h.1.1

theorem countFrom_zero_eq_ok (h : cs ≠ []) :
    countFrom 0 cs = .ok n ↔ (Digits cs ∧ Nat.ofDigitChars 10 cs 0 = n) ∧ n < countBound := by
  rw [countFrom_eq_ok (by decide), Digits, and_iff_right h, and_assoc]

/-- **Counts** are the texts that type numbers of 64 bits. -/
theorem count_eq_ok : count cs = .ok n ↔ Counts cs n ∧ n < countBound := by
  unfold count
  split
  · exact iff_of_false (by simp) fun ⟨h, _⟩ => h.isWord.1 rfl
  · exact iff_of_false (by simp) fun ⟨h, _⟩ => (counts_plus.mp h).1.1 rfl
  · rw [counts_plus, countFrom_zero_eq_ok (List.cons_ne_nil _ _)]
  · next c cs hsign hplus =>
    have hc : (c :: cs).head? ≠ some '+' := by
      rintro ⟨⟩
      cases cs with
      | nil => exact hsign rfl rfl
      | cons d ds => exact hplus d ds rfl rfl
    rw [counts_of_head hc, countFrom_zero_eq_ok (List.cons_ne_nil _ _)]

theorem counts_toDigits (n : Nat) : Counts (Nat.toDigits 10 n) n := by
  have h := Counts.digits (digits_toDigits n)
  rwa [Nat.ofDigitChars_ten_toDigits] at h

/-- **A count** is read back from its digits. -/
theorem count_toDigits (h : n < countBound) : count (Nat.toDigits 10 n) = .ok n :=
  count_eq_ok.mpr ⟨counts_toDigits n, h⟩

end Text

/-! ### Locations -/

namespace Location

open Text

/-- The text `cs` types the half `n` of a location: a positive number of 64 bits, with blanks around it. -/
def TypedCount (cs : List Char) (n : Nat) : Prop :=
  ∃ left w right, cs = left ++ w ++ right ∧ Blanks left ∧ Blanks right ∧ Counts w n ∧ 0 < n ∧ n < countBound

/-- Whether a location can be typed: it counts from one, and both counts fit. -/
structure Typed (l : Location) : Prop where
  line_pos : 0 < l.line
  line_lt : l.line < countBound
  column_pos : 0 < l.column
  column_lt : l.column < countBound

variable {cs before after : List Char} {n : Nat} {s : String} {l : Location}

theorem part?_eq_some : part? cs = some n ↔ TypedCount cs n := by
  have hcount : part? cs = some n ↔ count (trim cs) = .ok n ∧ 0 < n := by
    rw [part?]
    rcases count (trim cs) with e | m
    · simp
    · rcases m with - | m
      · simp only [Except.ok.injEq, reduceCtorEq, false_iff]
        omega
      · simp only [Except.ok.injEq, Option.some.injEq]
        omega
  rw [hcount, count_eq_ok]
  constructor
  · rintro ⟨⟨h, hn⟩, hpos⟩
    obtain ⟨left, right, hcs, hleft, hright⟩ := (trim_eq_iff h.isWord).mp rfl
    exact ⟨left, _, right, hcs, hleft, hright, h, hpos, hn⟩
  · rintro ⟨left, w, right, hcs, hleft, hright, h, hpos, hn⟩
    rw [(trim_eq_iff h.isWord).mpr ⟨left, right, hcs, hleft, hright⟩]
    exact ⟨⟨h, hn⟩, hpos⟩

/-- A text is cut at its first colon. -/
theorem read?_of_colon (hs : s.toList = before ++ ':' :: after) (h : ':' ∉ before) :
    read? s = (do return ⟨← part? before, ← part? after⟩) := by
  have hne : ∀ c ∈ before, decide (c ≠ ':') = true := fun c hc => decide_eq_true fun e => h (e ▸ hc)
  have hmem : ':' ∈ s.toList := by simp [hs]
  have hline : s.toList.takeWhile (· ≠ ':') = before := by
    rw [hs, List.takeWhile_append_of_pos hne]
    simp
  have hcolumn : (s.toList.dropWhile (· ≠ ':')).drop 1 = after := by
    rw [hs, List.dropWhile_append_of_pos hne]
    simp
  simp only [read?, if_pos hmem, hline, hcolumn]

/-- A text without a colon is no location. -/
theorem exists_colon (h : read? s = some l) :
    ∃ before after, s.toList = before ++ ':' :: after ∧ ':' ∉ before := by
  refine List.eq_append_cons_of_mem ?_
  by_contra hmem
  rw [read?, if_neg hmem] at h
  cases h

theorem read?_eq_some : read? s = some l ↔
    ∃ before after, s.toList = before ++ ':' :: after ∧ ':' ∉ before ∧
      TypedCount before l.line ∧ TypedCount after l.column := by
  constructor
  · intro h
    obtain ⟨before, after, hs, hcolon⟩ := exists_colon h
    rw [read?_of_colon hs hcolon] at h
    obtain ⟨line, hline, h⟩ := Option.bind_eq_some_iff.mp h
    obtain ⟨column, hcolumn, h⟩ := Option.bind_eq_some_iff.mp h
    obtain rfl := Option.some.inj h
    exact ⟨before, after, hs, hcolon, part?_eq_some.mp hline, part?_eq_some.mp hcolumn⟩
  · rintro ⟨before, after, hs, hcolon, hline, hcolumn⟩
    rw [read?_of_colon hs hcolon, part?_eq_some.mpr hline, part?_eq_some.mpr hcolumn]
    rfl

/-! ### Locations as they are shown -/

theorem toList_text (l : Location) :
    l.text.toList = Nat.toDigits 10 l.line ++ ':' :: Nat.toDigits 10 l.column := by
  have htext : l.text = Nat.repr l.line ++ ":" ++ Nat.repr l.column := rfl
  rw [htext, String.toList_append, String.toList_append, Nat.toList_repr, Nat.toList_repr, List.append_assoc]
  rfl

theorem isWord_text (l : Location) : IsWord l.text.toList := by
  obtain ⟨hne, hline⟩ := isWord_toDigits l.line
  rw [toList_text]
  refine ⟨List.append_ne_nil_of_left_ne_nil hne _, fun c hc => ?_⟩
  rcases List.mem_append.mp hc with hc | hc
  · exact hline c hc
  · rcases List.mem_cons.mp hc with rfl | hc
    · decide
    · exact (isWord_toDigits l.column).2 c hc

theorem typedCount_toDigits (hpos : 0 < n) (h : n < countBound) : TypedCount (Nat.toDigits 10 n) n :=
  ⟨[], _, [], by simp, blanks_nil, blanks_nil, counts_toDigits n, hpos, h⟩

/-- **A location** is read back from the text that it is shown as. -/
theorem read?_text (h : l.Typed) : read? l.text = some l := by
  refine read?_eq_some.mpr ⟨_, _, toList_text l, fun hmem => ?_, typedCount_toDigits h.line_pos h.line_lt,
    typedCount_toDigits h.column_pos h.column_lt⟩
  exact absurd ((digits_toDigits l.line).2 ':' hmem) (by decide)

/-- **Locations as they are typed.** A text is read as a location exactly if its first colon stands between two
positive numbers of 64 bits, which are the line and the column: digits, perhaps behind a plus sign and with
blanks around. What a location is shown as is read back exactly if both of its numbers are such. -/
theorem read?_as_typed (s : String) (l : Location) :
    (read? s = some l ↔ ∃ before after, s.toList = before ++ ':' :: after ∧ ':' ∉ before ∧
      TypedCount before l.line ∧ TypedCount after l.column) ∧
    (read? l.text = some l ↔ l.Typed) := by
  refine ⟨read?_eq_some, fun h => ?_, read?_text⟩
  obtain ⟨-, -, -, -, ⟨-, -, -, -, -, -, -, hline⟩, -, -, -, -, -, -, -, hcolumn⟩ := read?_eq_some.mp h
  exact ⟨hline.1, hline.2, hcolumn.1, hcolumn.2⟩

/-- Zeros in front do not count towards the bound, and a second colon is no digit. -/
example : read? " +00000000000000000000000007:3\t" = some ⟨7, 3⟩ ∧ read? "18446744073709551616:1" = none ∧
    read? "3:7:" = none := by decide

end Location

end JsonSelect
