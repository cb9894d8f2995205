import JsonSelect.Proofs.Reading.Declining

/-! # What stays noted behind a number

A number literal is read as far as it goes, so behind its end it is noted which parts could have come next:
a sign, a fraction or an exponent, or more digits, for which there is no word. This failure is further on
than all that is noted before, whatever the literal is (`turns_numberLiteral`). It also outlives that the
literal as a whole is rejected: that is noted at the literal's start, which is before its end
(`turns_number`). -/

namespace JsonSelect.Reading

open Rule Written

variable {k k' : Cursor}

/-- The failure that stays noted behind a number literal that ends at `k`. A sign is missed behind the digit
that stands in its place, which is the end if there is no other digit. -/
def overrun (l : NumberLiteral) (k : Cursor) : Failure :=
  match l.exponent with
  | some ⟨_, none, [d]⟩ =>
    ⟨k.offset, .unexpected [.symbol '+', .symbol '-'] (some d), ⟨k.offset - 1, k.offset⟩⟩
  | some _ => k.missing []
  | none => k.missing (if l.fraction.isSome then [.sort "exponent"] else [.symbol '.', .sort "exponent"])

theorem place_overrun (l : NumberLiteral) (k : Cursor) : (overrun l k).place = k.offset := by
  unfold overrun
  split <;> rfl

/-- An optional part goes on as the part does. -/
theorem offset_le_of_reads_optional {α : Type} {r : Rule α} {o : Option α} (h : (optional r).Reads k o k')
    (hr : ∀ a, r.Reads k a k' → k.offset < k'.offset) : k.offset ≤ k'.offset := by
  rcases reads_optional.mp h with ⟨a, -, h⟩ | ⟨-, rfl, -⟩
  · exact Nat.le_of_lt (hr a h)
  · exact Nat.le_refl _

/-! ### Digits -/

theorem passes_pos {cs : List Char} (hne : cs ≠ []) (h : k.Passes cs k') : k.offset < k'.offset := by
  rw [h.offset]
  exact Nat.lt_add_of_pos_right (byteLength_pos hne)

/-- Digits leave notes at their first character and behind the last one. -/
theorem turns_digits_of {J J' : Option Failure → Prop} {ds : List Char} (h : digits.Reads k ds k')
    (h₁ : (one Char.isDigit).Keeps J k) (h₂ : (noteMissing []).Turns J J' k') : digits.Turns J J' k := by
  obtain ⟨c, k₁, hone, h⟩ := reads_bind.mp h
  obtain ⟨cs, k₂, hrun, h⟩ := reads_bind.mp h
  obtain ⟨u, k₃, hnote, h⟩ := reads_bind.mp h
  obtain rfl := reads_noteMissing.mp hnote
  obtain ⟨-, rfl⟩ := reads_pure.mp h
  exact turns_bind_of_reads hone h₁ <| turns_bind_of_reads hrun keeps_run <|
    turns_bind h₂ fun _ _ _ => keeps_pure

theorem offset_lt_of_reads_digits {ds : List Char} (h : digits.Reads k ds k') : k.offset < k'.offset := by
  obtain ⟨hd, hp, -⟩ := reads_digits.mp h
  exact passes_pos hd.1 hp

/-- Behind digits more digits are missed. -/
theorem turns_digits {ds : List Char} (h : digits.Reads k ds k') :
    digits.Turns (Noted (Before k'.offset)) (Held (k'.missing [])) k :=
  turns_digits_of h (keeps_one (absorbs_noted _) (offset_lt_of_reads_digits h)) (turns_noteMissing [])

/-- There is no word for digits: what is expected in the same place stays the only thing. -/
theorem keeps_digits {ds : List Char} (h : digits.Reads k ds k') {es : List Expectation}
    {found : Option Char} {span : Span} :
    digits.Keeps (Held ⟨k'.offset, .unexpected es found, span⟩) k :=
  turns_digits_of h (keeps_one (absorbs_held _) (offset_lt_of_reads_digits h)) turns_noteMissing_held

/-- Whole digits miss something at their first character only. -/
theorem keeps_whole {R : Nat → Span → Prop} (h : R k.offset k.cell) : whole.Keeps (Noted R) k := by
  refine keeps_orElse ?_ fun _ => turns_bind (keeps_symbol (absorbs_noted _) h) fun _ _ _ => keeps_pure
  refine turns_bind (keeps_one (absorbs_noted _) h) fun _ _ _ => turns_bind keeps_run fun _ _ _ => ?_
  exact turns_bind (turns_forget (noted_none _)) fun _ _ _ => keeps_pure

/-! ### Exponents -/

/-- A sign is missed behind the character that stands in its place. -/
theorem note_sign {c : Char} (hp : k.Passes [c] k') (hc : c.isDigit = true) : (sign k).note = fun n =>
    n.expect ⟨k'.offset, .unexpected [.symbol '+', .symbol '-'] (some c), ⟨k.offset, k'.offset⟩⟩ := by
  obtain ⟨ahead, offset⟩ := k
  obtain ⟨ahead', offset'⟩ := k'
  obtain rfl : ahead = c :: ahead' := hp.ahead
  obtain rfl : offset' = offset + c.utf8Size := hp.offset
  have hplus : c ≠ '+' := by
    rintro rfl
    exact absurd hc (by decide)
  have hminus : c ≠ '-' := by
    rintro rfl
    exact absurd hc (by decide)
  unfold sign
  simp only [hplus, hminus, decide_false, Bool.or_self, Bool.false_eq_true, if_false]
  rfl

theorem keeps_sign_of_reads {J : Option Failure → Prop} {c : Char} (h : sign.Reads k c k') :
    sign.Keeps J k := by
  obtain ⟨hc, hp⟩ := reads_sign.mp h
  obtain ⟨ahead, offset⟩ := k
  obtain rfl : ahead = c :: k'.ahead := hp.ahead
  have hs : (sign ⟨c :: k'.ahead, offset⟩).note = id := by
    unfold sign
    simp only [hc, Bool.or_eq_true, decide_eq_true_eq, if_true]
  intro n hn
  rwa [hs]

theorem keeps_exponentLetter {R : Nat → Span → Prop} (h : R k.offset k.cell) :
    exponentLetter.Keeps (Noted R) k :=
  keeps_orElse (turns_bind (keeps_symbol (absorbs_noted _) h) fun _ _ _ => keeps_pure) fun _ =>
    turns_bind (keeps_symbol (absorbs_noted _) h) fun _ _ _ => keeps_pure

theorem utf8Size_of_isDigit {c : Char} (h : c.isDigit = true) : c.utf8Size = 1 := by
  have hs : ("0123456789".toList.all fun d => d.utf8Size == 1) = true := by decide
  simpa using List.all_eq_true.mp hs c (mem_of_isDigit h)

/-- What stays noted behind the digits of an exponent, with or without a sign in front. -/
theorem turns_signed {l : NumberLiteral} {letter : Char} {s : Option Char} {ds : List Char}
    (hl : l.exponent = some ⟨letter, s, ds⟩) {k₁ : Cursor} (hs : (optional sign).Reads k s k₁)
    (hd : digits.Reads k₁ ds k') : ∃ J, (optional sign).Turns (Noted (Before k'.offset)) J k ∧
      digits.Turns J (Held (overrun l k')) k₁ := by
  rcases reads_optional.mp hs with ⟨c, rfl, hc⟩ | ⟨rfl, rfl, hm⟩
  · have ho : overrun l k' = k'.missing [] := by
      unfold overrun
      rw [hl]
    rw [ho]
    exact ⟨_, turns_optional (keeps_sign_of_reads hc), turns_digits hd⟩
  · -- a sign is missed behind the first digit, so at the end of the literal if that is the only one
    obtain ⟨⟨hne, hdigit⟩, hp, -⟩ := reads_digits.mp hd
    cases ds with
    | nil => exact absurd rfl hne
    | cons d ds =>
      have hd₁ := hdigit d (by simp)
      obtain ⟨k₂, h₂, h₃⟩ := Cursor.passes_cons.mp hp
      have hnote := note_sign h₂ hd₁
      cases ds with
      | nil =>
        obtain rfl := Cursor.passes_nil.mp h₃
        have ho : overrun l k' = ⟨k'.offset, .unexpected [.symbol '+', .symbol '-'] (some d),
            ⟨k₁.offset, k'.offset⟩⟩ := by
          have hsize : k'.offset - 1 = k₁.offset := by
            rw [h₂.offset, byteLength_cons, utf8Size_of_isDigit hd₁]
            rfl
          unfold overrun
          rw [hl]
          simp only [hsize]
        rw [ho]
        refine ⟨_, turns_optional fun n hn => ?_, keeps_digits hd⟩
        rw [hnote]
        exact congrArg some (added_of_before (f := ⟨_, _, _⟩) hn addMissing)
      | cons d' ds =>
        have ho : overrun l k' = k'.missing [] := by
          unfold overrun
          rw [hl]
        rw [ho]
        refine ⟨_, turns_optional fun n hn => ?_, turns_digits hd⟩
        rw [hnote]
        exact absorbs_noted _ addMissing _ ⟨_, _, _⟩ hn (passes_pos (List.cons_ne_nil _ _) h₃)

/-- What stays noted behind an exponent. -/
theorem turns_exponent {l : NumberLiteral} {e : ExponentLiteral} (hl : l.exponent = some e)
    (h : exponent.Reads k e k') : exponent.Turns (Noted (Before k'.offset)) (Held (overrun l k')) k := by
  obtain ⟨letter, k₁, hletter, h⟩ := reads_bind.mp (reads_labelled.mp h)
  obtain ⟨s, k₂, hs, h⟩ := reads_bind.mp h
  obtain ⟨ds, k₃, hd, h⟩ := reads_bind.mp h
  obtain ⟨rfl, rfl⟩ := reads_pure.mp h
  obtain ⟨J, hsign, hdigits⟩ := turns_signed hl hs hd
  have hlt : k.offset < (overrun l k').place := by
    have h₁ := passes_pos (List.cons_ne_nil _ _) (reads_exponentLetter.mp hletter).2
    have h₂ : k₁.offset ≤ k₂.offset := offset_le_of_reads_optional hs fun c hc =>
      passes_pos (List.cons_ne_nil _ _) (reads_sign.mp hc).2
    have h₃ := offset_lt_of_reads_digits hd
    rw [place_overrun]
    omega
  rw [← place_overrun l k'] at hsign ⊢
  refine turns_labelled_held hlt ?_
  exact turns_bind_of_reads hletter (keeps_exponentLetter hlt) <| turns_bind_of_reads hs hsign <|
    turns_bind hdigits fun _ _ _ => keeps_pure

/-- Where no exponent starts, one is missed. -/
theorem turns_exponent_of_misses {es : List Expectation}
    (h : StartsOutside (fun c => c = 'e' || c = 'E') k.ahead) :
    exponent.Turns (Held (k.missing es)) (Held (k.missing (longerFirst es [.sort "exponent"]))) k := by
  have he : k.ahead.head? ≠ some 'e' := fun e => absurd (h 'e' e) (by decide)
  have hE : k.ahead.head? ≠ some 'E' := fun e => absurd (h 'E' e) (by decide)
  have hletter : exponentLetter.Turns (Noted (Before k.offset))
      (Held (k.missing (addMissing [.symbol 'e'] [.symbol 'E']))) k :=
    turns_orElse_of_misses (declines_symbol he).bind.misses
      (turns_bind (turns_symbol he) fun _ _ _ => keeps_pure)
      (turns_bind (turns_symbol_held hE) fun _ _ _ => keeps_pure)
  refine turns_labelled (I := Held (k.missing (addMissing [.symbol 'e'] [.symbol 'E']))) (fun n hn => ?_)
    fun o i ho hi => ?_
  · exact turns_bind_of_misses (misses_exponentLetter h) hletter n (by rw [hn]; exact noted_none _)
  · obtain rfl : i = some _ := hi
    obtain rfl : o = some _ := ho
    have hrelabel : (k.missing (addMissing [.symbol 'e'] [.symbol 'E'])).relabel "exponent" k.offset =
        k.missing [.sort "exponent"] := if_pos rfl
    rw [Option.elim_some, hrelabel]
    exact congrArg some (added_missing longerFirst k es _ _ _)

/-! ### Number literals -/

theorem offset_lt_of_reads_exponent {e : ExponentLiteral} (h : exponent.Reads k e k') :
    k.offset < k'.offset :=
  passes_pos (List.cons_ne_nil _ _) (grammatical_of_reads_exponent h).2

theorem declines_fraction (h : k.ahead.head? ≠ some '.') : fraction.Declines k := (declines_symbol h).bind

/-- A fraction leaves notes as its digits do. -/
theorem turns_fraction {J J' : Option Failure → Prop} {ds : List Char} (h : fraction.Reads k ds k')
    (ht : ∀ k₁, digits.Reads k₁ ds k' → digits.Turns J J' k₁) : fraction.Turns J J' k := by
  obtain ⟨u, k₁, h₁, h₂⟩ := reads_bind.mp h
  exact turns_bind_of_reads h₁ (keeps_symbol_of_reads h₁) (ht k₁ h₂)

/-- What stays noted behind the fraction and the exponent of a literal, if it has them. -/
theorem turns_fraction_exponent {l : NumberLiteral} {k₁ : Cursor}
    (hf : (optional fraction).Reads k l.fraction k₁) (he : (optional exponent).Reads k₁ l.exponent k')
    (ho : StartsOutside continuesNumber k'.ahead) :
    ∃ J, (optional fraction).Turns (Noted (Before k'.offset)) J k ∧
      (optional exponent).Turns J (Held (overrun l k')) k₁ := by
  rcases reads_optional.mp he with ⟨e, hl, he⟩ | ⟨hl, rfl, -⟩
  · have hlt := offset_lt_of_reads_exponent he
    refine ⟨_, turns_optional ?_, turns_optional (turns_exponent hl he)⟩
    rcases reads_optional.mp hf with ⟨ds, -, hf⟩ | ⟨-, rfl, -⟩
    · exact turns_fraction hf fun k₂ hd => turns_digits_of hd
        (keeps_one (absorbs_noted _) (Nat.lt_trans (offset_lt_of_reads_digits hd) hlt))
        (keeps_noteMissing (absorbs_noted _) hlt)
    · obtain ⟨letter, k₂, hletter, -⟩ := reads_bind.mp (reads_labelled.mp he)
      obtain ⟨hc, hp⟩ := reads_exponentLetter.mp hletter
      refine (declines_fraction ?_).keeps (absorbs_noted _) hlt
      rw [hp.ahead]
      rcases hc with rfl | rfl <;> simp
  · have hletter : StartsOutside (fun c => c = 'e' || c = 'E') k'.ahead := ho.mono fun c hc => by
      have hc : c = 'e' ∨ c = 'E' := by simpa using hc
      rcases hc with rfl | rfl <;> decide
    rcases reads_optional.mp hf with ⟨ds, hfr, hf⟩ | ⟨hfr, rfl, -⟩
    · have hoverrun : overrun l k' = k'.missing (longerFirst [] [.sort "exponent"]) := by
        unfold overrun
        rw [hl, hfr]
        rfl
      rw [hoverrun]
      exact ⟨_, turns_optional (turns_fraction hf fun _ hd => turns_digits hd),
        turns_optional (turns_exponent_of_misses hletter)⟩
    · have hoverrun : overrun l k' = k'.missing (longerFirst [.symbol '.'] [.sort "exponent"]) := by
        unfold overrun
        rw [hl, hfr]
        rfl
      have hpoint : k'.ahead.head? ≠ some '.' := fun e => absurd (ho '.' e) (by decide)
      rw [hoverrun]
      exact ⟨_, turns_optional (turns_bind_of_misses (misses_symbol.mpr hpoint) (turns_symbol hpoint)),
        turns_optional (turns_exponent_of_misses hletter)⟩

/-- **What stays noted** behind a number literal. -/
theorem turns_numberLiteral {l : NumberLiteral} (h : numberLiteral.Reads k l k')
    (ho : StartsOutside continuesNumber k'.ahead) :
    numberLiteral.Turns (Noted (Before k'.offset)) (Held (overrun l k')) k := by
  obtain ⟨minus, k₁, hm, h⟩ := reads_bind.mp h
  obtain ⟨w, k₂, hw, h⟩ := reads_bind.mp h
  obtain ⟨fr, k₃, hf, h⟩ := reads_bind.mp h
  obtain ⟨ex, k₄, he, h⟩ := reads_bind.mp h
  obtain ⟨rfl, rfl⟩ := reads_pure.mp h
  obtain ⟨J, hfraction, hexponent⟩ := turns_fraction_exponent (l := ⟨minus.isSome, w, fr, ex⟩) hf he ho
  have h₁ : k.offset ≤ k₁.offset := offset_le_of_reads_optional hm fun u hu =>
    passes_pos (List.cons_ne_nil _ _) (reads_symbol.mp hu)
  have h₂ : k₁.offset < k₂.offset := by
    rcases reads_whole.mp hw with ⟨⟨⟨hne, -⟩, -⟩, hp, -⟩ | ⟨-, hp⟩
    · exact passes_pos hne hp
    · exact passes_pos (List.cons_ne_nil _ _) hp
  have h₃ : k₂.offset ≤ k₃.offset := offset_le_of_reads_optional hf fun ds hds =>
    passes_pos (List.cons_ne_nil _ _) (reads_fraction.mp hds).2.1
  have h₄ : k₃.offset ≤ k'.offset := offset_le_of_reads_optional he fun _ => offset_lt_of_reads_exponent
  refine turns_bind_of_reads hm (turns_optional (keeps_symbol (absorbs_noted _) ?_)) <|
    turns_bind_of_reads hw (keeps_whole ?_) <| turns_bind_of_reads hf hfraction <|
    turns_bind_of_reads he hexponent keeps_pure
  · show k.offset < k'.offset
    omega
  · show k₁.offset < k'.offset
    omega

/-- **Behind a number** the end of its literal stays noted, also if the literal is rejected: that is noted at
its start. -/
theorem turns_number {l : NumberLiteral} (h : numberLiteral.Reads k l k')
    (ho : StartsOutside continuesNumber k'.ahead) {J J' : Option Failure → Prop}
    (hJ : ∀ o, J o → J' (some (added longerFirst o (overrun l k')))) : number.Turns J J' k := by
  obtain ⟨hg, hp⟩ := grammatical_of_reads_numberLiteral h
  obtain ⟨c, cs, hchars, -⟩ := head_numberLiteral hg
  have hlt : k.offset < (overrun l k').place := by
    rw [place_overrun]
    exact passes_pos (hchars ▸ List.cons_ne_nil c cs) hp
  have hliteral := turns_numberLiteral h ho
  rw [← place_overrun l k'] at hliteral
  have hspanned : (spanned numberLiteral).Reads k (⟨k.offset, k'.offset⟩, l) k' := reads_spanned.mpr ⟨rfl, h⟩
  refine turns_labelled_of_held hlt (turns_bind_of_reads hspanned (turns_spanned hliteral) ?_) hJ
  cases hn : l.number? with
  | some n => simpa only [hn] using keeps_pure
  | none =>
    have hreject : (reject ⟨k.offset, k'.offset⟩ (.outOfRange (String.ofList l.chars)) : Rule Number).Keeps
        (Held (overrun l k')) k' := keeps_reject (absorbs_held _) hlt
    simpa only [hn] using hreject

end JsonSelect.Reading
