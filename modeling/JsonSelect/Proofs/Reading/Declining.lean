import JsonSelect.Proofs.Reading.Noted
import JsonSelect.Proofs.Reading.Values

/-! # Alternatives that decline

The alternatives of a choice start differently. Where another one stands, an alternative declines: it misses
at its first character and notes nothing but what it expected there (`Declines`). So a failure noted further
on outlives all alternatives tried before and after the one that left it.

* `declines_valueWithin`: a value declines where it cannot start.
* `declines_keywords` and the lemmas behind it: the alternatives that decline for the first character of a
  value. -/

namespace JsonSelect.Reading

namespace Rule

variable {α β : Type} {r s : Rule α} {f : α → Rule β} {k k' : Cursor} {c : Char}
variable {R R' : Nat → Span → Prop} {J J' : Option Failure → Prop}

/-- The rule misses at the cursor and notes nothing but what it expected there. -/
structure Declines (r : Rule α) (k : Cursor) : Prop where
  misses : r.Misses k
  keeps : ∀ {R J}, Absorbs R J → R k.offset k.cell → r.Keeps J k

/-! ### Combinations -/

theorem declines_symbol (h : k.ahead.head? ≠ some c) : (symbol c).Declines k :=
  ⟨misses_symbol.mpr h, fun hJ hR => keeps_symbol hJ hR⟩

theorem declines_one {p : Char → Bool} (h : StartsOutside p k.ahead) : (one p).Declines k :=
  ⟨misses_one.mpr h, fun hJ hR => keeps_one hJ hR⟩

theorem Declines.bind (h : r.Declines k) : (r >>= f).Declines k :=
  ⟨misses_bind.mpr (.inl h.misses), fun hJ hR => turns_bind_of_misses h.misses (h.keeps hJ hR)⟩

theorem Declines.orElse (h : r.Declines k) (h' : s.Declines k) : (r <|> s).Declines k :=
  ⟨misses_orElse.mpr ⟨h.misses, h'.misses⟩,
    fun hJ hR => turns_orElse_of_misses h.misses (h.keeps hJ hR) (h'.keeps hJ hR)⟩

theorem Declines.labelled {name : String} (h : r.Declines k) : (labelled name r).Declines k :=
  ⟨misses_labelled.mpr h.misses,
    fun hJ hR => keeps_labelled hJ (h.keeps (absorbs_noted _) hR)⟩

theorem Declines.spanned (h : r.Declines k) : (spanned r).Declines k :=
  ⟨misses_spanned.mpr h.misses, fun hJ hR => turns_spanned (h.keeps hJ hR)⟩

/-- An optional part that declines leaves the cursor to the next one. -/
theorem Declines.optional_bind {f : Option α → Rule β} (h : r.Declines k) (hf : (f none).Declines k) :
    (optional r >>= f).Declines k := by
  have hr : (optional r).Reads k none k := reads_optional.mpr (.inr ⟨rfl, rfl, h.misses⟩)
  exact ⟨misses_bind.mpr (.inr ⟨none, k, hr, hf.misses⟩),
    fun hJ hR => turns_bind_of_reads hr (turns_optional (h.keeps hJ hR)) (hf.keeps hJ hR)⟩

theorem Declines.padded (hk : Settled k) (h : r.Declines k) : (padded r).Declines k := by
  have hb : blanks.Reads k () k := reads_blanks.mpr ⟨[], .refl k, Written.blanks_nil, hk⟩
  exact ⟨misses_padded hk h.misses, fun hJ hR => turns_padded hb (h.keeps hJ hR)⟩

/-- An alternative that declines leaves the choice to the other one. -/
theorem turns_orElse_right (hr : r.Declines k) (hJ : Absorbs R J) (hR : R k.offset k.cell)
    (hs : s.Turns J J' k) : (r <|> s).Turns J J' k :=
  turns_orElse_of_misses hr.misses (hr.keeps hJ hR) hs

end Rule

open Rule Written

variable {k : Cursor}

/-! ### Values -/

theorem declines_constant {w : String} {s : Scalar} {c : Char} {cs : List Char} (hw : w.toList = c :: cs)
    (h : k.ahead.head? ≠ some c) : (constant w s).Declines k := by
  refine Declines.labelled (Declines.bind ?_)
  rw [hw]
  exact (declines_symbol h).bind

theorem declines_number (h : StartsOutside (fun c => c = '-' || c.isDigit) k.ahead) :
    number.Declines k := by
  have hminus : k.ahead.head? ≠ some '-' := fun e => absurd (h '-' e) (by decide)
  have hnonzero : StartsOutside (fun c => c.isDigit && c ≠ '0') k.ahead := h.mono fun c hc => by
    simp only [Bool.and_eq_true] at hc
    simp [hc.1]
  have hzero : k.ahead.head? ≠ some '0' := fun e => absurd (h '0' e) (by decide)
  have hwhole : whole.Declines k := (declines_one hnonzero).bind.orElse (declines_symbol hzero).bind
  exact ((declines_symbol hminus).optional_bind hwhole.bind).spanned.bind.labelled

theorem declines_stringLiteral (h : k.ahead.head? ≠ some '"') : stringLiteral.Declines k :=
  (declines_symbol h).bind.labelled

theorem declines_bracketed {α : Type} {left right : Char} {inside : Rule α}
    (h : k.ahead.head? ≠ some left) : (bracketed left right inside).Declines k :=
  (declines_symbol h).bind

variable {value : Rule Node}

theorem declines_array (h : k.ahead.head? ≠ some '[') : (array value).Declines k :=
  (declines_bracketed h).labelled

theorem declines_object (h : k.ahead.head? ≠ some '\x7b') : (object value).Declines k :=
  (declines_bracketed h).labelled

theorem declines_member (h : k.ahead.head? ≠ some '"') : (member value).Declines k :=
  (declines_stringLiteral h).spanned.bind.labelled

theorem declines_valueWithin {n : Nat} (h : Stops k.ahead) : (valueWithin n).Declines k := by
  have hne : ∀ c, c ∉ ",]\x7d".toList → k.ahead.head? ≠ some c := fun c hc e => hc (h c e)
  cases n with
  | zero => exact ⟨rfl, fun _ _ _ hn => hn⟩
  | succ n =>
    refine Declines.padded h.settled (Declines.bind (Declines.spanned ?_))
    exact (declines_constant rfl (hne 'n' (by decide))).orElse <|
      (declines_constant rfl (hne 't' (by decide))).orElse <|
      (declines_constant rfl (hne 'f' (by decide))).orElse <|
      (declines_number (h.startsOutside (by decide))).bind.orElse <|
      (declines_stringLiteral (hne '"' (by decide))).bind.orElse <|
      (declines_array (hne '[' (by decide))).bind.orElse
        (declines_object (hne '\x7b' (by decide))).bind

/-! ### Alternatives by the first character -/

theorem declines_keywords {c : Char} (h : k.ahead.head? = some c) (hc : c ∉ "ntf".toList) :
    (constant "null" .null).Declines k ∧ (constant "true" (.boolean true)).Declines k ∧
      (constant "false" (.boolean false)).Declines k := by
  have hne : ∀ d ∈ "ntf".toList, k.ahead.head? ≠ some d := by
    rintro d hd e
    rw [h] at e
    cases e
    exact hc hd
  exact ⟨declines_constant rfl (hne 'n' (by decide)), declines_constant rfl (hne 't' (by decide)),
    declines_constant rfl (hne 'f' (by decide))⟩

/-- Where no keyword starts, the alternatives behind the keywords are left. -/
theorem turns_behind_keywords {R : Nat → Span → Prop} {J J' : Option Failure → Prop} {c : Char}
    {s : Rule (Span → Node)} (h : k.ahead.head? = some c) (hc : c ∉ "ntf".toList) (hJ : Absorbs R J)
    (hR : R k.offset k.cell) (hs : s.Turns J J' k) : (constant "null" .null <|>
      constant "true" (.boolean true) <|> constant "false" (.boolean false) <|> s).Turns J J' k := by
  obtain ⟨h₁, h₂, h₃⟩ := declines_keywords h hc
  exact turns_orElse_right h₁ hJ hR <| turns_orElse_right h₂ hJ hR <| turns_orElse_right h₃ hJ hR hs

theorem declines_number_of_head {c : Char} (h : k.ahead.head? = some c)
    (hc : c = '"' ∨ c = '[' ∨ c = '\x7b') : number.Declines k := by
  refine declines_number fun d hd => ?_
  rw [h] at hd
  obtain rfl := Option.some.inj hd
  rcases hc with rfl | rfl | rfl <;> decide

end JsonSelect.Reading
