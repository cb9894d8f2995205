import JsonSelect.Proofs.Written.Form
import JsonSelect.Reading.Grammar

/-! # Numbers that are read

The rule for number literals reads exactly the grammatical literals, as far as they go:

* `grammatical_of_reads_numberLiteral`: what it reads is a literal and its text.
* `reads_numberLiteral`: it reads a literal behind which none of the characters stands that could continue
  it.

Each part of a literal has the same two lemmas, joined into one where the rule reads as far as it can. -/

namespace JsonSelect.Reading

open Rule Written

variable {k k' : Cursor}

/-! ### Digits -/

theorem reads_digits {ds : List Char} : digits.Reads k ds k' ↔
    Digits ds ∧ k.Passes ds k' ∧ StartsOutside Char.isDigit k'.ahead := by
  simp only [digits, reads_bind, reads_one, reads_run, reads_noteMissing, reads_pure]
  constructor
  · rintro ⟨c, k₁, ⟨hc, h₁⟩, cs, k₂, ⟨h₂, hcs, ho⟩, _, _, rfl, rfl, rfl⟩
    exact ⟨⟨by simp, by simpa using ⟨hc, hcs⟩⟩, h₁.trans h₂, ho⟩
  · rintro ⟨⟨hne, hd⟩, h, ho⟩
    cases ds with
    | nil => exact absurd rfl hne
    | cons c cs =>
      obtain ⟨k₁, h₁, h₂⟩ := Cursor.passes_cons.mp h
      exact ⟨c, k₁, ⟨hd c (by simp), h₁⟩, cs, k', ⟨h₂, fun d hm => hd d (by simp [hm]), ho⟩, (), k',
        rfl, rfl, rfl⟩

theorem mem_of_isDigit {c : Char} (h : c.isDigit = true) : c ∈ "0123456789".toList := by
  have hn : 48 ≤ c.toNat ∧ c.toNat ≤ 57 := by
    simpa [Char.isDigit, UInt32.le_iff_toNat_le] using h
  have hm : ∀ n < 58, 48 ≤ n → Char.ofNat n ∈ "0123456789".toList := by decide
  have := hm c.toNat (by omega) hn.1
  rwa [Char.ofNat_toNat] at this

theorem head_digits {ds : List Char} (h : Digits ds) : ∃ c cs, ds = c :: cs ∧ c.isDigit = true := by
  cases ds with
  | nil => exact absurd rfl h.1
  | cons c cs => exact ⟨c, cs, rfl, h.2 c (by simp)⟩

/-- Digits start with a digit. -/
theorem startsOutside_digits {ds : List Char} (h : Digits ds) (rest : List Char) {p : Char → Bool}
    (hp : "0123456789".toList.any p = false) : StartsOutside p (ds ++ rest) := by
  obtain ⟨c, cs, rfl, hc⟩ := head_digits h
  exact startsOutside_cons.mpr (eq_false_of_any hp c (mem_of_isDigit hc))

theorem reads_nonzeroWhole {ds : List Char} : nonzeroWhole.Reads k ds k' ↔
    (Digits ds ∧ ds.head? ≠ some '0') ∧ k.Passes ds k' ∧ StartsOutside Char.isDigit k'.ahead := by
  simp only [nonzeroWhole, reads_bind, reads_one, reads_run, reads_forget, reads_pure,
    Bool.and_eq_true, decide_eq_true_eq]
  constructor
  · rintro ⟨c, k₁, ⟨⟨hc, h0⟩, h₁⟩, cs, k₂, ⟨h₂, hcs, ho⟩, _, _, rfl, rfl, rfl⟩
    exact ⟨⟨⟨by simp, by simpa using ⟨hc, hcs⟩⟩, by simpa using h0⟩, h₁.trans h₂, ho⟩
  · rintro ⟨⟨⟨hne, hd⟩, h0⟩, h, ho⟩
    cases ds with
    | nil => exact absurd rfl hne
    | cons c cs =>
      obtain ⟨k₁, h₁, h₂⟩ := Cursor.passes_cons.mp h
      exact ⟨c, k₁, ⟨⟨hd c (by simp), by simpa using h0⟩, h₁⟩, cs, k',
        ⟨h₂, fun d hm => hd d (by simp [hm]), ho⟩, (), k', rfl, rfl, rfl⟩

theorem misses_nonzeroWhole (h : StartsOutside (fun c => c.isDigit && c ≠ '0') k.ahead) :
    nonzeroWhole.Misses k :=
  misses_bind.mpr (.inl (misses_one.mpr h))

theorem reads_whole {ds : List Char} : whole.Reads k ds k' ↔
    ((Digits ds ∧ ds.head? ≠ some '0') ∧ k.Passes ds k' ∧ StartsOutside Char.isDigit k'.ahead) ∨
      ds = ['0'] ∧ k.Passes ['0'] k' := by
  simp only [whole, reads_orElse, reads_nonzeroWhole, reads_bind, reads_symbol, reads_pure]
  refine or_congr_right ⟨?_, ?_⟩
  · rintro ⟨-, _, _, h, rfl, rfl⟩
    exact ⟨rfl, h⟩
  · rintro ⟨rfl, h⟩
    refine ⟨misses_nonzeroWhole fun c hc => ?_, (), k', h, rfl, rfl⟩
    obtain rfl : c = '0' := by simpa [h.ahead] using hc.symm
    rfl

/-! ### Fractions and exponents -/

theorem reads_fraction {ds : List Char} : fraction.Reads k ds k' ↔
    Digits ds ∧ k.Passes ('.' :: ds) k' ∧ StartsOutside Char.isDigit k'.ahead := by
  simp only [fraction, reads_bind, reads_symbol, reads_digits]
  rw [Cursor.passes_cons]
  constructor
  · rintro ⟨_, k₁, h₁, hd, h₂, ho⟩
    exact ⟨hd, ⟨k₁, h₁, h₂⟩, ho⟩
  · rintro ⟨hd, ⟨k₁, h₁, h₂⟩, ho⟩
    exact ⟨(), k₁, h₁, hd, h₂, ho⟩

theorem misses_fraction (h : k.ahead.head? ≠ some '.') : fraction.Misses k :=
  misses_bind.mpr (.inl (misses_symbol.mpr h))

theorem result_sign : (sign k).result =
    ((one fun c => c = '+' || c = '-') k).result := by
  obtain ⟨ahead, offset⟩ := k
  cases ahead with
  | nil => rfl
  | cons c cs =>
    by_cases h : (c = '+' || c = '-') = true
    · simp only [sign, one, if_pos h]
    · simp only [sign, one, if_neg h]
      rfl

theorem reads_sign {c : Char} : sign.Reads k c k' ↔ (c = '+' ∨ c = '-') ∧ k.Passes [c] k' := by
  have h : (one fun c => c = '+' || c = '-').Reads k c k' ↔ _ := reads_one
  simp only [Bool.or_eq_true, decide_eq_true_eq] at h
  rw [← h]
  unfold Reads
  rw [result_sign]

theorem misses_sign (h : StartsOutside (fun c => c = '+' || c = '-') k.ahead) : sign.Misses k := by
  unfold Misses
  rw [result_sign]
  exact misses_one.mpr h

theorem reads_exponentLetter {c : Char} :
    exponentLetter.Reads k c k' ↔ (c = 'e' ∨ c = 'E') ∧ k.Passes [c] k' := by
  simp only [exponentLetter, reads_orElse, reads_bind, reads_symbol, reads_pure]
  constructor
  · rintro (⟨_, _, h, rfl, rfl⟩ | ⟨-, _, _, h, rfl, rfl⟩)
    · exact ⟨.inl rfl, h⟩
    · exact ⟨.inr rfl, h⟩
  · rintro ⟨rfl | rfl, h⟩
    · exact .inl ⟨(), k', h, rfl, rfl⟩
    · refine .inr ⟨misses_bind.mpr (.inl (misses_symbol.mpr ?_)), (), k', h, rfl, rfl⟩
      simp [h.ahead]

theorem misses_exponentLetter (h : StartsOutside (fun c => c = 'e' || c = 'E') k.ahead) :
    exponentLetter.Misses k := by
  refine misses_orElse.mpr ⟨misses_bind.mpr (.inl (misses_symbol.mpr ?_)),
    misses_bind.mpr (.inl (misses_symbol.mpr ?_))⟩
  · intro e
    exact absurd (h 'e' e) (by decide)
  · intro e
    exact absurd (h 'E' e) (by decide)

theorem misses_exponent (h : StartsOutside (fun c => c = 'e' || c = 'E') k.ahead) :
    exponent.Misses k :=
  misses_labelled.mpr (misses_bind.mpr (.inl (misses_exponentLetter h)))

theorem grammatical_of_reads_exponent {e : ExponentLiteral} (h : exponent.Reads k e k') :
    GrammaticalExponent e ∧ k.Passes e.chars k' := by
  simp only [exponent, reads_labelled, reads_bind, reads_exponentLetter, reads_optional, reads_sign,
    reads_digits, reads_pure] at h
  obtain ⟨letter, k₁, ⟨hl, h₁⟩, sign, k₂, hs, ds, k₃, ⟨hd, h₃, -⟩, rfl, rfl⟩ := h
  rcases hs with ⟨c, rfl, hc, h₂⟩ | ⟨rfl, rfl, -⟩
  · refine ⟨⟨hl, fun d hd => ?_, hd⟩, h₁.trans (h₂.trans h₃)⟩
    obtain rfl : c = d := by simpa using hd
    exact hc
  · refine ⟨⟨hl, fun d hd => ?_, hd⟩, h₁.trans h₃⟩
    cases hd

theorem reads_exponent {e : ExponentLiteral} (he : GrammaticalExponent e) (h : k.Passes e.chars k')
    (ho : StartsOutside Char.isDigit k'.ahead) : exponent.Reads k e k' := by
  obtain ⟨letter, sign, ds⟩ := e
  obtain ⟨hl, hs, hd⟩ := he
  obtain ⟨k₁, h₁, h'⟩ := Cursor.passes_cons.mp h
  obtain ⟨k₂, h₂, h₃⟩ := Cursor.passes_append.mp h'
  simp only [exponent, reads_labelled, reads_bind, reads_exponentLetter, reads_optional, reads_sign,
    reads_digits, reads_pure]
  refine ⟨letter, k₁, ⟨hl, h₁⟩, sign, k₂, ?_, ds, k', ⟨hd, h₃, ho⟩, rfl, rfl⟩
  cases sign with
  | some c => exact .inl ⟨c, rfl, hs c rfl, h₂⟩
  | none =>
    -- the first digit is no sign
    obtain rfl : k₂ = k₁ := Cursor.passes_nil.mp h₂
    refine .inr ⟨rfl, rfl, misses_sign ?_⟩
    rw [h₃.ahead]
    exact startsOutside_digits hd _ (by decide)

/-! ### Number literals -/

/-- The characters that can continue a number literal. -/
def continuesNumber (c : Char) : Bool := c.isDigit || c = '.' || c = 'e' || c = 'E'

theorem passes_of_reads_minus {o : Option Unit} (h : (optional (symbol '-')).Reads k o k') :
    k.Passes (if o.isSome then ['-'] else []) k' := by
  rcases reads_optional.mp h with ⟨u, rfl, hu⟩ | ⟨rfl, rfl, -⟩
  · exact reads_symbol.mp hu
  · exact .refl _

theorem grammatical_of_reads_whole {w : List Char} (h : whole.Reads k w k') :
    (w = ['0'] ∨ Digits w ∧ w.head? ≠ some '0') ∧ k.Passes w k' := by
  rcases reads_whole.mp h with ⟨hd, hp, -⟩ | ⟨rfl, hp⟩
  · exact ⟨.inr hd, hp⟩
  · exact ⟨.inl rfl, hp⟩

theorem grammatical_of_reads_fraction {o : Option (List Char)} (h : (optional fraction).Reads k o k') :
    (∀ ds, o = some ds → Digits ds) ∧ k.Passes (o.elim [] ('.' :: ·)) k' := by
  rcases reads_optional.mp h with ⟨ds, rfl, hf⟩ | ⟨rfl, rfl, -⟩
  · obtain ⟨hd, hp, -⟩ := reads_fraction.mp hf
    refine ⟨fun ds' e => ?_, hp⟩
    cases e
    exact hd
  · refine ⟨fun ds e => ?_, .refl _⟩
    cases e

theorem grammatical_of_reads_numberLiteral {l : NumberLiteral} (h : numberLiteral.Reads k l k') :
    GrammaticalNumber l ∧ k.Passes l.chars k' := by
  obtain ⟨minus, k₁, hm, h⟩ := reads_bind.mp h
  obtain ⟨w, k₂, hw, h⟩ := reads_bind.mp h
  obtain ⟨fr, k₃, hf, h⟩ := reads_bind.mp h
  obtain ⟨ex, k₄, he, h⟩ := reads_bind.mp h
  obtain ⟨rfl, rfl⟩ := reads_pure.mp h
  have h₁ := passes_of_reads_minus hm
  have h₂ := grammatical_of_reads_whole hw
  have h₃ := grammatical_of_reads_fraction hf
  have h₄ : (∀ e, ex = some e → GrammaticalExponent e) ∧
      k₃.Passes (ex.elim [] ExponentLiteral.chars) k' := by
    rcases reads_optional.mp he with ⟨e, rfl, hx⟩ | ⟨rfl, rfl, -⟩
    · obtain ⟨hg, hp⟩ := grammatical_of_reads_exponent hx
      refine ⟨fun e' he => ?_, hp⟩
      cases he
      exact hg
    · refine ⟨fun e he => ?_, Cursor.Passes.refl _⟩
      cases he
  exact ⟨⟨h₂.1, h₃.1, h₄.1⟩, ((h₁.trans h₂.2).trans h₃.2).trans h₄.2⟩

theorem digits_whole {l : NumberLiteral} (hl : GrammaticalNumber l) : Digits l.whole := by
  rcases hl.whole with h | ⟨h, -⟩
  · rw [h]
    exact ⟨by simp, List.all_eq_true.mp (by decide)⟩
  · exact h

/-- A literal starts with a minus sign or a digit. -/
theorem head_numberLiteral {l : NumberLiteral} (hl : GrammaticalNumber l) :
    ∃ c cs, l.chars = c :: cs ∧ (c = '-' ∨ c.isDigit = true) := by
  obtain ⟨c, cs, he, hc⟩ := head_digits (digits_whole hl)
  unfold NumberLiteral.chars
  cases l.negative with
  | true => exact ⟨'-', _, rfl, .inl rfl⟩
  | false => exact ⟨c, _, by rw [he]; rfl, .inr hc⟩

/-- What is true of digits, signs, points and exponent letters is true of all of a literal. -/
theorem forall_number {P : Char → Prop} (hP : ∀ c ∈ "0123456789+-.eE".toList, P c)
    {l : NumberLiteral} (hl : GrammaticalNumber l) : ∀ c ∈ l.chars, P c := by
  have hdigits : ∀ ds, Digits ds → ∀ c ∈ ds, P c := fun ds hd c hc =>
    hP c (List.mem_append_left "+-.eE".toList (mem_of_isDigit (hd.2 c hc)))
  have hexponent : ∀ e, l.exponent = some e → ∀ c ∈ e.chars, P c := by
    intro e he
    obtain ⟨hletter, hsign, hd⟩ := hl.exponent e he
    refine List.forall_mem_cons.mpr ⟨?_, List.forall_mem_append.mpr ⟨fun c hc => ?_, hdigits _ hd⟩⟩
    · rcases hletter with h | h <;> rw [h] <;> exact hP _ (by decide)
    · rcases hsign c (Option.mem_toList.mp hc) with rfl | rfl <;> exact hP _ (by decide)
  unfold NumberLiteral.chars
  refine List.forall_mem_append.mpr ⟨List.forall_mem_append.mpr ⟨List.forall_mem_append.mpr ⟨?_, ?_⟩, ?_⟩, ?_⟩
  · split
    · exact List.forall_mem_singleton.mpr (hP _ (by decide))
    · exact List.forall_mem_nil _
  · exact hdigits _ (digits_whole hl)
  · cases hf : l.fraction with
    | none => exact List.forall_mem_nil _
    | some ds => exact List.forall_mem_cons.mpr ⟨hP _ (by decide), hdigits _ (hl.fraction ds hf)⟩
  · cases he : l.exponent with
    | none => exact List.forall_mem_nil _
    | some e => exact hexponent e he

theorem reads_numberLiteral {l : NumberLiteral} (hl : GrammaticalNumber l) (h : k.Passes l.chars k')
    (ho : StartsOutside continuesNumber k'.ahead) : numberLiteral.Reads k l k' := by
  obtain ⟨k₃, h', h₄⟩ := Cursor.passes_append.mp h
  obtain ⟨k₂, h', h₃⟩ := Cursor.passes_append.mp h'
  obtain ⟨k₁, h₁, h₂⟩ := Cursor.passes_append.mp h'
  have hd := digits_whole hl
  obtain ⟨negative, w, fr, ex⟩ := l
  -- what follows a part of the literal does not continue it
  have ho₄ : StartsOutside Char.isDigit k'.ahead := ho.mono fun c hc => by simp [continuesNumber, hc]
  have ho₃ : StartsOutside (fun c => c.isDigit || c = '.') k₃.ahead := by
    rw [h₄.ahead]
    cases ex with
    | none => exact ho.mono fun c hc => by simp [continuesNumber, hc]
    | some e =>
      refine startsOutside_cons.mpr ?_
      rcases (hl.exponent e rfl).letter with he | he <;> rw [he] <;> decide
  have ho₂ : StartsOutside Char.isDigit k₂.ahead := by
    rw [h₃.ahead]
    cases fr with
    | none => exact ho₃.mono fun c hc => by simp [hc]
    | some ds => exact startsOutside_cons.mpr (by decide)
  simp only [numberLiteral, reads_bind, reads_optional, reads_symbol, reads_pure]
  refine ⟨if negative then some () else none, k₁, ?_, w, k₂, ?_, fr, k₃, ?_, ex, k', ?_, ?_, rfl⟩
  · cases negative with
    | true => exact .inl ⟨(), rfl, h₁⟩
    | false =>
      obtain rfl := Cursor.passes_nil.mp h₁
      refine .inr ⟨rfl, rfl, misses_symbol.mpr fun e => ?_⟩
      rw [h₂.ahead] at e
      exact absurd (startsOutside_digits (p := (· = '-')) hd _ (by decide) '-' e) (by decide)
  · rw [reads_whole]
    rcases hl.whole with rfl | hw
    · exact .inr ⟨rfl, h₂⟩
    · exact .inl ⟨hw, h₂, ho₂⟩
  · cases fr with
    | some ds =>
      exact .inl ⟨ds, rfl, reads_fraction.mpr ⟨hl.fraction ds rfl, h₃, ho₃.mono fun c hc => by simp [hc]⟩⟩
    | none =>
      refine .inr ⟨rfl, Cursor.passes_nil.mp h₃, misses_fraction fun e => ?_⟩
      rw [← Cursor.passes_nil.mp h₃] at e
      exact absurd (ho₃ '.' e) (by decide)
  · cases ex with
    | some e => exact .inl ⟨e, rfl, reads_exponent (hl.exponent e rfl) h₄ ho₄⟩
    | none =>
      obtain rfl := Cursor.passes_nil.mp h₄
      refine .inr ⟨rfl, rfl, misses_exponent (ho.mono fun c hc => ?_)⟩
      have hc : c = 'e' ∨ c = 'E' := by simpa using hc
      rcases hc with rfl | rfl <;> decide
  · cases negative <;> rfl

/-- A number is a literal that denotes it. -/
theorem reads_number {n : Number} :
    number.Reads k n k' ↔ ∃ l, numberLiteral.Reads k l k' ∧ l.number? = some n := by
  simp only [number, reads_labelled, reads_bind]
  constructor
  · rintro ⟨⟨span, l⟩, k₁, h, hn⟩
    obtain ⟨-, hl⟩ := reads_spanned.mp h
    cases he : l.number? with
    | none => simp [he] at hn
    | some m =>
      simp only [he, reads_pure] at hn
      obtain ⟨rfl, rfl⟩ := hn
      exact ⟨l, hl, he⟩
  · rintro ⟨l, hl, he⟩
    refine ⟨(⟨k.offset, k'.offset⟩, l), k', reads_spanned.mpr ⟨rfl, hl⟩, ?_⟩
    simp [he]

/-- A number starts with a minus sign or a digit. -/
theorem misses_number (h : StartsOutside (fun c => c = '-' || c.isDigit) k.ahead) :
    number.Misses k := by
  rw [misses_iff]
  intro n k' hr
  obtain ⟨l, hl, -⟩ := reads_number.mp hr
  obtain ⟨hg, hp⟩ := grammatical_of_reads_numberLiteral hl
  obtain ⟨c, cs, he, hc⟩ := head_numberLiteral hg
  have := h c (by rw [hp.ahead, he]; rfl)
  rcases hc with rfl | hc
  · exact absurd this (by decide)
  · simp [hc] at this

end JsonSelect.Reading
