import JsonSelect.Proofs.Reading.Numbers

/-! # String literals and scalars that are read

The rule for string literals reads exactly the contents between quotation marks that denote a text
(`reads_stringLiteral`): their end is marked, so nothing has to be asked of what follows. With numbers
and keywords they make up the literals of `Written`:

* `reads_spanless`: what the rule for values reads is a literal, an array or an object.
* `reads_spanless_literal`, `reads_spanless_array`, `reads_spanless_object`: it reads each of them.
* `misses_spanless`: it reads nothing that starts with another character. -/

namespace JsonSelect.Reading

open Rule Written Text

variable {k k' : Cursor}

/-! ### String literals -/

theorem reads_contents_iff {ps : List Piece} : contents.Reads k ps k' ↔
    ps = (pieces k.ahead).1 ∧
      k' = ⟨(pieces k.ahead).2, k.offset + Piece.sizes (pieces k.ahead).1⟩ := by
  unfold contents Reads
  simp only [bind, Rule.bind, forget, pure, Rule.pure]
  constructor
  · intro h
    cases h
    exact ⟨rfl, rfl⟩
  · rintro ⟨rfl, rfl⟩
    rfl

theorem spells_of_reads_contents {ps : List Piece} (h : contents.Reads k ps k') :
    ∃ raw, Spells ps raw ∧ k.Passes raw k' := by
  obtain ⟨rfl, rfl⟩ := reads_contents_iff.mp h
  obtain ⟨raw, he, hs⟩ := spells_pieces k.ahead
  exact ⟨raw, hs, he, by rw [byteLength_of_spells hs]⟩

theorem reads_contents {ps : List Piece} {raw : List Char} (hs : Spells ps raw)
    (h : k.Passes raw k') (he : EndsContents k'.ahead) : contents.Reads k ps k' := by
  rw [reads_contents_iff, h.ahead, pieces_of_spells hs he, ← byteLength_of_spells hs, ← h.offset]
  exact ⟨rfl, rfl⟩

theorem reads_decoded {s : String} : decoded.Reads k s k' ↔
    ∃ ps cs, contents.Reads k ps k' ∧ decode ps = .ok cs ∧ s = String.ofList cs := by
  simp only [decoded, reads_bind]
  constructor
  · rintro ⟨⟨span, ps⟩, k₁, h, hs⟩
    obtain ⟨-, hc⟩ := reads_spanned.mp h
    cases he : decode ps with
    | error e => simp [he] at hs
    | ok cs =>
      simp only [he, reads_pure] at hs
      obtain ⟨rfl, rfl⟩ := hs
      exact ⟨ps, cs, hc, he, rfl⟩
  · rintro ⟨ps, cs, hc, he, rfl⟩
    refine ⟨(⟨k.offset, k'.offset⟩, ps), k', reads_spanned.mpr ⟨rfl, hc⟩, ?_⟩
    simp [he]

/-- **String literals** are read to their closing quotation mark. -/
theorem reads_stringLiteral {s : String} : stringLiteral.Reads k s k' ↔
    ∃ raw, Contents raw ∧ (∃ cs, meaning raw = .ok cs) ∧ s = denoted raw ∧
      k.Passes (enclosed raw) k' := by
  simp only [stringLiteral, reads_labelled, reads_bind, reads_symbol, reads_decoded, reads_pure]
  constructor
  · rintro ⟨_, k₁, h₁, _, k₂, ⟨ps, cs, hc, he, rfl⟩, _, k₃, h₃, rfl, rfl⟩
    obtain ⟨raw, hs, h₂⟩ := spells_of_reads_contents hc
    rw [← meaning_of_spells hs] at he
    exact ⟨raw, ⟨ps, hs⟩, ⟨cs, he⟩, by rw [denoted, he], h₁.trans (h₂.trans h₃)⟩
  · rintro ⟨raw, ⟨ps, hs⟩, ⟨cs, he⟩, rfl, h⟩
    obtain ⟨k₁, h₁, h'⟩ := Cursor.passes_cons.mp h
    obtain ⟨k₂, h₂, h₃⟩ := Cursor.passes_append.mp h'
    have hend : EndsContents k₂.ahead := .inr (by rw [h₃.ahead]; rfl)
    refine ⟨(), k₁, h₁, denoted raw, k₂, ⟨ps, cs, reads_contents hs h₂ hend, ?_, ?_⟩, (), k', h₃, rfl, rfl⟩
    · rw [← meaning_of_spells hs, he]
    · rw [denoted, he]

theorem misses_stringLiteral (h : k.ahead.head? ≠ some '"') : stringLiteral.Misses k :=
  misses_labelled.mpr (misses_bind.mpr (.inl (misses_symbol.mpr h)))

/-! ### Values without parts -/

theorem reads_constant {w : String} {s : Scalar} {g : Span → Node} :
    (constant w s).Reads k g k' ↔ k.Passes w.toList k' ∧ g = fun span => .scalar span s := by
  simp only [constant, reads_labelled, reads_bind, reads_keyword, reads_pure]
  constructor
  · rintro ⟨_, _, h, rfl, rfl⟩
    exact ⟨h, rfl⟩
  · rintro ⟨h, rfl⟩
    exact ⟨(), k', h, rfl, rfl⟩

theorem misses_constant {w : String} {s : Scalar} {c : Char} {cs : List Char} (hw : w.toList = c :: cs)
    (h : k.ahead.head? ≠ some c) : (constant w s).Misses k := by
  refine misses_labelled.mpr (misses_bind.mpr (.inl ?_))
  rw [hw]
  exact misses_keyword h

/-- The characters that a value can start with. -/
def startsValue (c : Char) : Bool :=
  c = '-' || c.isDigit || "ntf\"[\x7b".toList.contains c

variable {value : Rule Node} {g : Span → Node}

/-- A value is a literal, an array or an object. -/
theorem reads_spanless (h : (spanless value).Reads k g k') :
    (∃ l : Literal, (Form.literal l).Grammatical ∧ (Form.literal l).Accepted ∧ k.Passes l.chars k' ∧
      g = fun span => .scalar span l.scalar) ∨
    (∃ items, (array value).Reads k items k' ∧ g = fun span => .array span items) ∨
    ∃ members, (object value).Reads k members k' ∧ g = fun span => .object span members := by
  simp only [spanless, reads_orElse, reads_constant, reads_bind, reads_number, reads_stringLiteral,
    reads_pure] at h
  rcases h with ⟨hp, rfl⟩ | ⟨-, ⟨hp, rfl⟩ | ⟨-, ⟨hp, rfl⟩ | ⟨-, h | ⟨-, h | ⟨-, h | ⟨-, h⟩⟩⟩⟩⟩⟩
  · exact .inl ⟨.null, trivial, trivial, hp, rfl⟩
  · exact .inl ⟨.boolean true, trivial, trivial, hp, rfl⟩
  · exact .inl ⟨.boolean false, trivial, trivial, hp, rfl⟩
  · obtain ⟨n, _, ⟨l, hl, hn⟩, rfl, rfl⟩ := h
    obtain ⟨hg, hp⟩ := grammatical_of_reads_numberLiteral hl
    refine .inl ⟨.number l, hg, ⟨n, hn⟩, hp, ?_⟩
    rw [Literal.scalar, hn]
    rfl
  · obtain ⟨_, _, ⟨raw, hc, hm, rfl, hp⟩, rfl, rfl⟩ := h
    exact .inl ⟨.string raw, hc, hm, hp, rfl⟩
  · obtain ⟨items, _, h, rfl, rfl⟩ := h
    exact .inr (.inl ⟨items, h, rfl⟩)
  · obtain ⟨members, _, h, rfl, rfl⟩ := h
    exact .inr (.inr ⟨members, h, rfl⟩)

/-- None of the keywords starts with another character than `n`, `t` and `f`. -/
theorem misses_keywords {c : Char} (h : k.ahead.head? = some c) (hc : c ∉ "ntf".toList) :
    (constant "null" .null).Misses k ∧ (constant "true" (.boolean true)).Misses k ∧
      (constant "false" (.boolean false)).Misses k := by
  have hne : ∀ d ∈ "ntf".toList, k.ahead.head? ≠ some d := by
    rintro d hd e
    rw [h] at e
    cases e
    exact hc hd
  exact ⟨misses_constant rfl (hne 'n' (by decide)), misses_constant rfl (hne 't' (by decide)),
    misses_constant rfl (hne 'f' (by decide))⟩

theorem not_mem_of_startsNumber {c : Char} (h : c = '-' ∨ c.isDigit = true) : c ∉ "ntf".toList := by
  rcases h with rfl | h
  · decide
  · have hd : "0123456789".toList.any ("ntf".toList.contains ·) = false := by decide
    simpa using eq_false_of_any hd c (mem_of_isDigit h)

/-- A literal is read, unless it is a number that what follows continues. -/
theorem reads_spanless_literal {l : Literal} (hg : (Form.literal l).Grammatical)
    (ha : (Form.literal l).Accepted) (h : k.Passes l.chars k')
    (ho : StartsOutside continuesNumber k'.ahead) :
    (spanless value).Reads k (fun span => .scalar span l.scalar) k' := by
  have hk := h.ahead
  simp only [spanless, reads_orElse, reads_constant, reads_bind, reads_number, reads_stringLiteral,
    reads_pure]
  cases l with
  | null => exact .inl ⟨h, rfl⟩
  | boolean b =>
    have hn : (constant "null" .null).Misses k :=
      misses_constant (c := 'n') rfl (by rw [hk]; cases b <;> simp [Literal.chars])
    cases b with
    | true => exact .inr ⟨hn, .inl ⟨h, rfl⟩⟩
    | false =>
      have ht : (constant "true" (.boolean true)).Misses k :=
        misses_constant (c := 't') rfl (by rw [hk]; simp [Literal.chars])
      exact .inr ⟨hn, .inr ⟨ht, .inl ⟨h, rfl⟩⟩⟩
  | number l =>
    obtain ⟨n, hn⟩ := ha
    obtain ⟨c, cs, he, hc⟩ := head_numberLiteral hg
    obtain ⟨h₁, h₂, h₃⟩ := misses_keywords (k := k) (c := c) (by rw [hk, Literal.chars, he]; rfl)
      (not_mem_of_startsNumber hc)
    refine .inr ⟨h₁, .inr ⟨h₂, .inr ⟨h₃, .inl ⟨n, k', ⟨l, reads_numberLiteral hg h ho, hn⟩, ?_, rfl⟩⟩⟩⟩
    rw [Literal.scalar, hn]
    rfl
  | string raw =>
    have hq : k.ahead.head? = some '"' := by rw [hk]; rfl
    obtain ⟨h₁, h₂, h₃⟩ := misses_keywords hq (by decide)
    have h₄ : number.Misses k := misses_number fun c hc => by
      rw [hq] at hc
      cases hc
      decide
    exact .inr ⟨h₁, .inr ⟨h₂, .inr ⟨h₃, .inr ⟨misses_bind.mpr (.inl h₄),
      .inl ⟨denoted raw, k', ⟨raw, hg, ha, rfl, h⟩, rfl, rfl⟩⟩⟩⟩⟩

/-! ### The other values -/

theorem head_of_reads_bracketed {α : Type} {left right : Char} {inside : Rule α} {a : α}
    (h : (bracketed left right inside).Reads k a k') : k.ahead.head? = some left := by
  simp only [bracketed, reads_bind, reads_symbol] at h
  obtain ⟨_, k₁, h₁, -⟩ := h
  rw [h₁.ahead]
  rfl

/-- No scalar starts with a bracket. -/
theorem misses_scalars {c : Char} (h : k.ahead.head? = some c) (hc : c = '[' ∨ c = '\x7b') :
    ((constant "null" .null).Misses k ∧ (constant "true" (.boolean true)).Misses k ∧
      (constant "false" (.boolean false)).Misses k) ∧ number.Misses k ∧ stringLiteral.Misses k := by
  refine ⟨misses_keywords h ?_, misses_number fun d hd => ?_, misses_stringLiteral ?_⟩
  · rcases hc with rfl | rfl <;> decide
  · rw [h] at hd
    cases hd
    rcases hc with rfl | rfl <;> decide
  · rw [h]
    rcases hc with rfl | rfl <;> decide

theorem reads_spanless_array {items : List Node} (h : (array value).Reads k items k') :
    (spanless value).Reads k (fun span => .array span items) k' := by
  have hk := head_of_reads_bracketed (reads_labelled.mp h)
  obtain ⟨⟨h₁, h₂, h₃⟩, h₄, h₅⟩ := misses_scalars hk (.inl rfl)
  simp only [spanless, reads_orElse, reads_bind, reads_pure]
  exact .inr ⟨h₁, .inr ⟨h₂, .inr ⟨h₃, .inr ⟨misses_bind.mpr (.inl h₄), .inr ⟨misses_bind.mpr (.inl h₅),
    .inl ⟨items, k', h, rfl, rfl⟩⟩⟩⟩⟩⟩

theorem reads_spanless_object {members : List (Key × Node)}
    (h : (object value).Reads k members k') :
    (spanless value).Reads k (fun span => .object span members) k' := by
  have hk := head_of_reads_bracketed (reads_labelled.mp h)
  obtain ⟨⟨h₁, h₂, h₃⟩, h₄, h₅⟩ := misses_scalars hk (.inr rfl)
  have h₆ : (array value).Misses k := misses_labelled.mpr (misses_bind.mpr (.inl (misses_symbol.mpr
    (by rw [hk]; decide))))
  simp only [spanless, reads_orElse, reads_bind, reads_pure]
  exact .inr ⟨h₁, .inr ⟨h₂, .inr ⟨h₃, .inr ⟨misses_bind.mpr (.inl h₄), .inr ⟨misses_bind.mpr (.inl h₅),
    .inr ⟨misses_bind.mpr (.inl h₆), members, k', h, rfl, rfl⟩⟩⟩⟩⟩⟩

/-- A value starts with a letter of a keyword, a number, a quotation mark or an opening bracket. -/
theorem misses_spanless (h : StartsOutside startsValue k.ahead) : (spanless value).Misses k := by
  have hne : ∀ c, startsValue c = true → k.ahead.head? ≠ some c := fun c hc e =>
    absurd hc (by rw [h c e]; decide)
  simp only [spanless, misses_orElse, misses_bind]
  refine ⟨misses_constant rfl (hne 'n' (by decide)), misses_constant rfl (hne 't' (by decide)),
    misses_constant rfl (hne 'f' (by decide)), .inl (misses_number ?_),
    .inl (misses_stringLiteral (hne '"' (by decide))), .inl ?_, .inl ?_⟩
  · exact h.mono fun c hc => by
      have hc : c = '-' ∨ c.isDigit = true := by simpa using hc
      simp only [startsValue, Bool.or_eq_true, decide_eq_true_eq]
      exact .inl hc
  · exact misses_labelled.mpr (misses_bind.mpr (.inl (misses_symbol.mpr (hne '[' (by decide)))))
  · exact misses_labelled.mpr (misses_bind.mpr (.inl (misses_symbol.mpr (hne '\x7b' (by decide)))))

end JsonSelect.Reading
