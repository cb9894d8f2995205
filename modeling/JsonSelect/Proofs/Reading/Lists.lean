import JsonSelect.Proofs.Reading.Outcome
import JsonSelect.Proofs.Written.Form

/-! # Lists that are read

Blanks are read as far as they go, so behind a padded text no blank stands (`reads_padded`). The items of
a list are a `Chain`: each one behind a separator, until no separator with an item behind it follows.
`reads_separated` says that the rule for lists reads a first item and the chain behind it, as long as
separators are not empty and items do not go back. -/

namespace JsonSelect.Reading.Rule

open Written

variable {α : Type} {r item : Rule α} {separator : Rule Unit} {k k' : Cursor} {a : α}

/-! ### Blanks -/

/-- No blank stands at the cursor. -/
abbrev Settled (k : Cursor) : Prop := StartsOutside Text.isBlank k.ahead

theorem reads_blanks {u : Unit} :
    blanks.Reads k u k' ↔ ∃ cs, k.Passes cs k' ∧ Blanks cs ∧ Settled k' := by
  simp only [blanks, reads_bind, reads_run, reads_pure]
  constructor
  · rintro ⟨cs, k₁, h, -, rfl⟩
    exact ⟨cs, h⟩
  · rintro ⟨cs, h⟩
    exact ⟨cs, k', h, trivial, rfl⟩

/-- Where no blank stands there are no blanks. -/
theorem Settled.passes {cs : List Char} (h : Settled k) (hp : k.Passes cs k') (hb : Blanks cs) :
    cs = [] ∧ k' = k := by
  cases cs with
  | nil => exact ⟨rfl, Cursor.passes_nil.mp hp⟩
  | cons c cs =>
    have hc := h c (by rw [hp.ahead]; rfl)
    rw [hb c (by simp)] at hc
    cases hc

theorem Settled.eq_of_reads_blanks (hk : Settled k) {u : Unit} (h : blanks.Reads k u k') : k' = k := by
  obtain ⟨cs, hp, hb, -⟩ := reads_blanks.mp h
  exact (hk.passes hp hb).2

theorem reads_padded : (padded r).Reads k a k' ↔ ∃ cs ds k₁ k₂, (k.Passes cs k₁ ∧ Blanks cs ∧
    Settled k₁) ∧ r.Reads k₁ a k₂ ∧ k₂.Passes ds k' ∧ Blanks ds ∧ Settled k' := by
  simp only [padded, reads_bind, reads_blanks, reads_pure]
  constructor
  · rintro ⟨_, k₁, ⟨cs, h₁⟩, _, k₂, h₂, _, _, ⟨ds, h₃⟩, rfl, rfl⟩
    exact ⟨cs, ds, k₁, k₂, h₁, h₂, h₃⟩
  · rintro ⟨cs, ds, k₁, k₂, h₁, h₂, h₃⟩
    exact ⟨(), k₁, ⟨cs, h₁⟩, a, k₂, h₂, (), k', ⟨ds, h₃⟩, rfl, rfl⟩

/-- Where no blank stands, a rule misses with blanks around it if it misses without. -/
theorem misses_padded (h : Settled k) (hr : r.Misses k) : (padded r).Misses k := by
  rw [misses_iff]
  intro a k' hp
  obtain ⟨cs, ds, k₁, k₂, ⟨h₁, hb, -⟩, h₂, -⟩ := reads_padded.mp hp
  obtain ⟨rfl, rfl⟩ := h.passes h₁ hb
  exact h₂.not_misses hr

/-! ### Separated items -/

/-- Items from `k` to `k'`, each behind a separator, as many as there are. -/
inductive Chain (item : Rule α) (separator : Rule Unit) : Cursor → List α → Cursor → Prop
  | stop {k : Cursor} (h : (do separator; item : Rule α).Misses k) : Chain item separator k [] k
  | more {k k₁ k₂ k' : Cursor} {a : α} {as : List α} (hs : separator.Reads k () k₁)
      (hi : item.Reads k₁ a k₂) (h : Chain item separator k₂ as k') :
      Chain item separator k (a :: as) k'

/-- Separators take the cursor on, and items do not take it back. -/
structure Progress (item : Rule α) (separator : Rule Unit) : Prop where
  separator : ∀ k u k', separator.Reads k u k' → k'.ahead.length < k.ahead.length
  item : ∀ k a k', item.Reads k a k' → k'.ahead.length ≤ k.ahead.length

theorem Progress.length_le (hp : Progress item separator) {k₁ k₂ : Cursor} {u : Unit} {c : Char}
    {bound : List Char} (hk : k.ahead.length ≤ (c :: bound).length) (hs : separator.Reads k u k₁)
    (hi : item.Reads k₁ a k₂) : k₂.ahead.length ≤ bound.length := by
  have h₁ := hp.separator _ _ _ hs
  have h₂ := hp.item _ _ _ hi
  simp only [List.length_cons] at hk
  omega

theorem reads_furtherItems (hp : Progress item separator) {as : List α} :
    ∀ (bound : List Char) (k : Cursor), k.ahead.length ≤ bound.length →
      ((furtherItems item separator bound).Reads k as k' ↔ Chain item separator k as k')
  | [], k, hk => by
    have hm : separator.Misses k := by
      rw [misses_iff]
      intro u k₁ h
      have := hp.separator k u k₁ h
      simp only [List.length_nil] at hk
      omega
    simp only [furtherItems, reads_bind, reads_optional, reads_pure]
    constructor
    · rintro ⟨o, k₁, ⟨u, rfl, h⟩ | ⟨rfl, rfl, -⟩, rfl, rfl⟩
      · exact absurd hm h.not_misses
      · exact .stop (misses_bind.mpr (.inl hm))
    · intro h
      cases h with
      | stop => exact ⟨none, _, .inr ⟨rfl, rfl, hm⟩, rfl, rfl⟩
      | more hs => exact absurd hm hs.not_misses
  | c :: bound, k, hk => by
    simp only [furtherItems, reads_bind, reads_optional]
    constructor
    · rintro ⟨o, k₁, ⟨a, rfl, u, k₂, hs, hi⟩ | ⟨rfl, rfl, hm⟩, h⟩
      · simp only [reads_bind, reads_pure] at h
        obtain ⟨as', k₃, h, rfl, rfl⟩ := h
        exact .more hs hi ((reads_furtherItems hp bound k₁ (hp.length_le hk hs hi)).mp h)
      · simp only [reads_pure] at h
        obtain ⟨rfl, rfl⟩ := h
        exact .stop hm
    · intro h
      cases h with
      | stop hm => exact ⟨none, _, .inr ⟨rfl, rfl, hm⟩, reads_pure.mpr ⟨rfl, rfl⟩⟩
      | more hs hi h =>
        refine ⟨_, _, .inl ⟨_, rfl, (), _, hs, hi⟩, ?_⟩
        simp only [reads_bind, reads_pure]
        exact ⟨_, _, (reads_furtherItems hp bound _ (hp.length_le hk hs hi)).mpr h, rfl, rfl⟩

/-- **A list** is empty, or an item and the chain behind it. -/
theorem reads_separated (hp : Progress item separator) {as : List α} :
    (separated item separator).Reads k as k' ↔ as = [] ∧ k' = k ∧ item.Misses k ∨
      ∃ a k₁ rest, as = a :: rest ∧ item.Reads k a k₁ ∧ Chain item separator k₁ rest k' := by
  simp only [separated, reads_bind, reads_optional]
  constructor
  · rintro ⟨o, k₁, ⟨a, rfl, hi⟩ | ⟨rfl, rfl, hm⟩, h⟩
    · obtain ⟨rest, k₂, h, he⟩ := reads_bind.mp h
      obtain ⟨rfl, rfl⟩ := reads_pure.mp he
      exact .inr ⟨a, k₁, rest, rfl, hi, (reads_furtherItems hp k₁.ahead k₁ le_rfl).mp h⟩
    · simp only [reads_pure] at h
      obtain ⟨rfl, rfl⟩ := h
      exact .inl ⟨rfl, rfl, hm⟩
  · rintro (⟨rfl, rfl, hm⟩ | ⟨a, k₁, rest, rfl, hi, h⟩)
    · exact ⟨none, k', .inr ⟨rfl, rfl, hm⟩, reads_pure.mpr ⟨rfl, rfl⟩⟩
    · refine ⟨some a, k₁, .inl ⟨a, rfl, hi⟩, ?_⟩
      exact reads_bind.mpr ⟨rest, k', (reads_furtherItems hp k₁.ahead k₁ le_rfl).mpr h,
        reads_pure.mpr ⟨rfl, rfl⟩⟩

end JsonSelect.Reading.Rule
