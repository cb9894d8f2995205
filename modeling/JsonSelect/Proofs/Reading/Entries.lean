import JsonSelect.Proofs.Reading.Lists
import JsonSelect.Proofs.Reading.Scalars
import JsonSelect.Proofs.Written.Entries

/-! # Entries that are read

The inside of a container is a list of entries behind commas. A rule that reads the bodies of entries
(`ReadsEntries`) makes the rule for the container read exactly the entries between the brackets, with the
contents that they have where they stand (`reads_bracketed_entries`). -/

namespace JsonSelect.Reading

open Rule Written Text

variable {α β γ : Type} {k k' : Cursor}

/-! ### What can follow a value -/

/-- The text is empty, or it starts with a comma or a closing bracket. -/
def Stops (cs : List Char) : Prop := ∀ c, cs.head? = some c → c ∈ ",]\x7d".toList

theorem Stops.startsOutside {cs : List Char} {p : Char → Bool} (h : Stops cs)
    (hp : ",]\x7d".toList.any p = false) : StartsOutside p cs :=
  fun c hc => eq_false_of_any hp c (h c hc)

theorem Stops.settled (h : Stops k.ahead) : Settled k := h.startsOutside (by decide)

theorem stops_of_passes {c : Char} {cs : List Char} (h : k.Passes (c :: cs) k')
    (hc : c ∈ ",]\x7d".toList) : Stops k.ahead := by
  intro d hd
  rw [h.ahead] at hd
  cases hd
  exact hc

/-- An entry is followed by a comma or by what follows the last one. -/
theorem stops_of_passes_further {e : Entries β α} {bs : List β} (h : k.Passes (e.further bs) k')
    (hk' : Stops k'.ahead) : Stops k.ahead := by
  cases bs with
  | nil =>
    obtain rfl := Cursor.passes_nil.mp h
    exact hk'
  | cons b bs =>
    rw [e.further_cons] at h
    exact stops_of_passes h (by decide)

theorem reads_comma {u : Unit} (h : Settled k) :
    comma.Reads k u k' ↔ ∃ cs, Blanks cs ∧ k.Passes (',' :: cs) k' ∧ Settled k' := by
  simp only [comma, reads_padded, reads_symbol]
  constructor
  · rintro ⟨cs, ds, k₁, k₂, ⟨h₁, hb, -⟩, h₂, h₃, hd, hk'⟩
    obtain ⟨rfl, rfl⟩ := h.passes h₁ hb
    exact ⟨ds, hd, h₂.trans h₃, hk'⟩
  · rintro ⟨cs, hb, hp, hk'⟩
    obtain ⟨k₁, h₁, h₂⟩ := Cursor.passes_cons.mp hp
    exact ⟨[], cs, k, k₁, ⟨.refl k, blanks_nil, h⟩, h₁, h₂, hb, hk'⟩

/-! ### Items behind commas -/

/-- The rule `item` reads the bodies of the entries in the class `good`. -/
structure ReadsEntries (item : Rule α) (e : Entries β α) (good : β → Prop) : Prop where
  passes : ∀ {k a k'}, item.Reads k a k' → ∃ cs, k.Passes cs k'
  sound : ∀ {k a k' lead}, Settled k → Blanks lead → item.Reads k a k' →
    ∃ b, good b ∧ e.lead b = lead ∧ k.Passes (e.body b) k' ∧ Settled k' ∧ a = e.content k.offset b
  complete : ∀ {k b k'}, good b → k.Passes (e.body b) k' → Stops k'.ahead →
    item.Reads k (e.content k.offset b) k'
  lead : ∀ {b}, good b → Blanks (e.lead b)
  settled : ∀ {k b k'}, good b → k.Passes (e.body b) k' → Settled k
  misses : ∀ {k}, Stops k.ahead → item.Misses k

namespace ReadsEntries

variable {item : Rule α} {e : Entries β α} {good : β → Prop}

theorem progress (h : ReadsEntries item e good) : Progress item comma := by
  refine ⟨fun k u k' hr => ?_, fun k a k' hr => ?_⟩
  · obtain ⟨cs, ds, k₁, k₂, ⟨h₁, -, -⟩, h₂, h₃, -⟩ := reads_padded.mp hr
    have h₂ := reads_symbol.mp h₂
    simp only [h₁.ahead, h₂.ahead, h₃.ahead, List.length_append, List.length_cons]
    omega
  · obtain ⟨cs, hp⟩ := h.passes hr
    simp only [hp.ahead, List.length_append]
    omega

/-- A chain of items is a row of entries. -/
theorem entries_of_chain (h : ReadsEntries item e good) {as : List α} (hc : Chain item comma k as k') :
    Settled k → ∃ bs, (∀ b ∈ bs, good b) ∧ k.Passes (e.further bs) k' ∧ Settled k' ∧
      as = e.contents (k.offset + 1) bs := by
  induction hc with
  | stop => exact fun hk => ⟨[], by simp, .refl _, hk, rfl⟩
  | more hs hi _ ih =>
    intro hk
    obtain ⟨lead, hb, h₁, hk₁⟩ := (reads_comma hk).mp hs
    obtain ⟨b, hg, rfl, h₂, hk₂, rfl⟩ := h.sound hk₁ hb hi
    obtain ⟨bs, hbs, h₃, hk', rfl⟩ := ih hk₂
    refine ⟨b :: bs, List.forall_mem_cons.mpr ⟨hg, hbs⟩, ?_, hk', ?_⟩
    · rw [e.further_cons]
      exact h₁.trans (h₂.trans h₃)
    · have hc : (',' : Char).utf8Size = 1 := rfl
      simp only [h₂.offset, h₁.offset, Entries.contents, Entries.text, byteLength_cons,
        byteLength_append, hc, Nat.add_assoc]

/-- A row of entries is a chain of items. -/
theorem chain_of_entries (h : ReadsEntries item e good) {bs : List β} (hbs : ∀ b ∈ bs, good b)
    (hp : k.Passes (e.further bs) k') (hk' : Stops k'.ahead) (hc : k'.ahead.head? ≠ some ',') :
    Chain item comma k (e.contents (k.offset + 1) bs) k' := by
  induction bs generalizing k with
  | nil =>
    obtain rfl := Cursor.passes_nil.mp hp
    exact .stop (misses_bind.mpr (.inl (misses_padded hk'.settled (misses_symbol.mpr hc))))
  | cons b bs ih =>
    obtain ⟨hg, hbs⟩ := List.forall_mem_cons.mp hbs
    rw [e.further_cons, ← List.cons_append] at hp
    have hk := stops_of_passes hp (by decide)
    obtain ⟨k₁, h₁, h'⟩ := Cursor.passes_append.mp hp
    obtain ⟨k₂, h₂, h₃⟩ := Cursor.passes_append.mp h'
    have hk₂ := stops_of_passes_further h₃ hk'
    have hs : comma.Reads k () k₁ := (reads_comma hk.settled).mpr ⟨_, h.lead hg, h₁, h.settled hg h₂⟩
    have ho : (',' : Char).utf8Size = 1 := rfl
    have hi := h.complete hg h₂ hk₂
    have hrest := ih hbs h₃
    simp only [h₂.offset, h₁.offset, byteLength_cons, ho, ← Nat.add_assoc] at hi hrest
    simp only [Entries.contents, Entries.text, byteLength_append, ← Nat.add_assoc]
    exact .more hs hi hrest

theorem entries_of_reads_separated (h : ReadsEntries item e good) {as : List α} (hk : Settled k)
    (hr : (separated item comma).Reads k as k') : ∃ bs, (∀ b ∈ bs, good b) ∧
      k.Passes (e.texts bs) k' ∧ Settled k' ∧ as = e.contents k.offset bs := by
  rcases (reads_separated h.progress).mp hr with ⟨rfl, rfl, -⟩ | ⟨a, k₁, rest, rfl, hi, hc⟩
  · exact ⟨[], by simp, .refl _, hk, rfl⟩
  · obtain ⟨b, hg, hl, h₁, hk₁, rfl⟩ := h.sound hk blanks_nil hi
    obtain ⟨bs, hbs, h₂, hk', rfl⟩ := h.entries_of_chain hc hk₁
    refine ⟨b :: bs, List.forall_mem_cons.mpr ⟨hg, hbs⟩, ?_, hk', ?_⟩
    · rw [e.texts_cons, Entries.text, hl, List.nil_append]
      exact h₁.trans h₂
    · simp only [Entries.contents, Entries.text, hl, byteLength_nil, List.nil_append, h₁.offset,
        Nat.add_zero]

theorem reads_separated_entries (h : ReadsEntries item e good) {b : β} {bs : List β}
    (hbs : ∀ b' ∈ b :: bs, good b') (hp : k.Passes (e.body b ++ e.further bs) k')
    (hk' : Stops k'.ahead) (hc : k'.ahead.head? ≠ some ',') : (separated item comma).Reads k
      (e.content k.offset b :: e.contents (k.offset + byteLength (e.body b) + 1) bs) k' := by
  obtain ⟨hg, hbs⟩ := List.forall_mem_cons.mp hbs
  obtain ⟨k₁, h₁, h₂⟩ := Cursor.passes_append.mp hp
  have hi := h.complete hg h₁ (stops_of_passes_further h₂ hk')
  refine (reads_separated h.progress).mpr (.inr ⟨_, k₁, _, rfl, hi, ?_⟩)
  rw [← h₁.offset]
  exact h.chain_of_entries hbs h₂ hk' hc

end ReadsEntries

/-! ### Between brackets -/

theorem reads_bracketed {left right : Char} {inside : Rule γ} {c : γ}
    (hr : right ∈ "]\x7d".toList) : (bracketed left right inside).Reads k c k' ↔
      ∃ gap tail k₁ k₂, k.Passes (left :: gap) k₁ ∧ Blanks gap ∧ Settled k₁ ∧ inside.Reads k₁ c k₂ ∧
        k₂.Passes (tail ++ [right]) k' ∧ Blanks tail := by
  have hs : ∀ k₃ : Cursor, k₃.Passes [right] k' → Settled k₃ := fun k₃ h => by
    refine (stops_of_passes h ?_).settled
    exact List.mem_cons_of_mem _ hr
  simp only [bracketed, reads_bind, reads_symbol, reads_padded, reads_pure]
  constructor
  · rintro ⟨_, k₀, h₀, _, k₃, ⟨gap, tail, k₁, k₂, ⟨h₁, hb, hk₁⟩, hi, h₃, ht, -⟩, _, _, h₄, rfl, rfl⟩
    exact ⟨gap, tail, k₁, k₂, h₀.trans h₁, hb, hk₁, hi, h₃.trans h₄, ht⟩
  · rintro ⟨gap, tail, k₁, k₂, h₁, hb, hk₁, hi, h₂, ht⟩
    obtain ⟨k₀, h₀, h₁⟩ := Cursor.passes_cons.mp h₁
    obtain ⟨k₃, h₃, h₄⟩ := Cursor.passes_append.mp h₂
    exact ⟨(), k₀, h₀, c, k₃, ⟨gap, tail, k₁, k₂, ⟨h₁, hb, hk₁⟩, hi, h₃, ht, hs k₃ h₄⟩, (), k', h₄,
      rfl, rfl⟩

/-- **Containers** are read from bracket to bracket, whatever `inside` makes of their entries. -/
theorem reads_bracketed_entries {item : Rule α} {e : Entries β α} {good : β → Prop}
    (h : ReadsEntries item e good) {left right : Char} (hr : right ∈ "]\x7d".toList)
    {inside : Rule γ} {g : List α → γ} (hin : ∀ {k c k'},
      inside.Reads k c k' ↔ ∃ as, (separated item comma).Reads k as k' ∧ c = g as) {c : γ} :
    (bracketed left right inside).Reads k c k' ↔ ∃ gap bs, Blanks gap ∧ (∀ b ∈ bs, good b) ∧
      k.Passes (left :: (gap ++ e.texts bs ++ [right])) k' ∧
        c = g (e.contents (k.offset + left.utf8Size + byteLength gap) bs) := by
  rw [reads_bracketed hr]
  constructor
  · rintro ⟨gap, tail, k₁, k₂, h₁, hb, hk₁, hi, h₂, ht⟩
    obtain ⟨as, hs, rfl⟩ := hin.mp hi
    obtain ⟨bs, hbs, hp, hk₂, rfl⟩ := h.entries_of_reads_separated hk₁ hs
    obtain ⟨k₃, h₃, h₄⟩ := Cursor.passes_append.mp h₂
    obtain ⟨rfl, rfl⟩ := hk₂.passes h₃ ht
    refine ⟨gap, bs, hb, hbs, ?_, ?_⟩
    · rw [← List.cons_append, ← List.cons_append]
      exact (h₁.trans hp).trans h₄
    · rw [h₁.offset, byteLength_cons, Nat.add_assoc]
  · rintro ⟨gap, bs, hb, hbs, hp, rfl⟩
    rw [← List.cons_append, ← List.cons_append] at hp
    obtain ⟨k₂, h', h₃⟩ := Cursor.passes_append.mp hp
    obtain ⟨k₁, h₁, h₂⟩ := Cursor.passes_append.mp h'
    have hk₂ : Stops k₂.ahead := stops_of_passes h₃ (List.mem_cons_of_mem _ hr)
    have hc : k₂.ahead.head? ≠ some ',' := by
      rw [h₃.ahead]
      rintro e
      cases e
      exact absurd hr (by decide)
    cases bs with
    | nil =>
      obtain rfl := Cursor.passes_nil.mp h₂
      refine ⟨gap, [], _, _, h₁, hb, hk₂.settled, hin.mpr ⟨[], ?_, rfl⟩, h₃, blanks_nil⟩
      exact (reads_separated h.progress).mpr (.inl ⟨rfl, rfl, h.misses hk₂⟩)
    | cons b bs =>
      obtain ⟨hg, -⟩ := List.forall_mem_cons.mp hbs
      rw [e.texts_cons, Entries.text, List.append_assoc] at h₂
      obtain ⟨k₃, h₄, h₅⟩ := Cursor.passes_append.mp h₂
      obtain ⟨k₄, h₆, -⟩ := Cursor.passes_append.mp h₅
      have hl : Blanks (gap ++ e.lead b) := by
        intro c hc
        rcases List.mem_append.mp hc with hc | hc
        · exact hb c hc
        · exact h.lead hg c hc
      refine ⟨gap ++ e.lead b, [], k₃, k₂, h₁.trans h₄, hl, h.settled hg h₆,
        hin.mpr ⟨_, h.reads_separated_entries hbs h₅ hk₂ hc, ?_⟩, h₃, blanks_nil⟩
      simp only [Entries.contents, Entries.text, byteLength_append, h₄.offset, h₁.offset,
        byteLength_cons, Nat.add_assoc]

end JsonSelect.Reading
