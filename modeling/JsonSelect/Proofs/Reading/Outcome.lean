import JsonSelect.Reading.Rule
import Mathlib.Data.List.TakeWhile

/-! # What rules read

What a rule reads does not depend on the notes, so it is a relation between two cursors: `r.Reads k a k'`
says that `r` reads `a` from `k` and stops at `k'`, and `r.Misses k` that it matches nothing at `k`.
There is one pair of lemmas for each combination of rules, `reads_*` and `misses_*`; behind them no rule
is unfolded.

A cursor `k'` lies behind the text `cs` from `k` when `k.Passes cs k'`. -/

namespace JsonSelect

theorem bind_eq_ok {ε α β : Type} {x : Except ε α} {g : α → Except ε β} {b : β} :
    (x >>= g) = .ok b ↔ ∃ a, x = .ok a ∧ g a = .ok b := by
  cases x <;> simp [bind, Except.bind]

end JsonSelect

namespace JsonSelect.Reading

/-! ### Texts between two cursors -/

@[simp] theorem byteLength_nil : byteLength [] = 0 := rfl

@[simp] theorem byteLength_cons (c : Char) (cs : List Char) :
    byteLength (c :: cs) = c.utf8Size + byteLength cs := rfl

@[simp] theorem byteLength_append (cs ds : List Char) :
    byteLength (cs ++ ds) = byteLength cs + byteLength ds := by
  induction cs with
  | nil => simp
  | cons c cs ih => rw [List.cons_append, byteLength_cons, byteLength_cons, ih, Nat.add_assoc]

theorem byteLength_pos {cs : List Char} (h : cs ≠ []) : 0 < byteLength cs := by
  cases cs with
  | nil => exact absurd rfl h
  | cons c cs =>
    rw [byteLength_cons]
    exact Nat.add_pos_left c.utf8Size_pos _

/-- The cursor `k'` stands behind the text `cs` from `k`. -/
structure Cursor.Passes (k : Cursor) (cs : List Char) (k' : Cursor) : Prop where
  ahead : k.ahead = cs ++ k'.ahead
  offset : k'.offset = k.offset + byteLength cs

namespace Cursor

theorem Passes.refl (k : Cursor) : k.Passes [] k := ⟨rfl, rfl⟩

theorem Passes.trans {k k' k'' : Cursor} {cs ds : List Char} (h : k.Passes cs k')
    (h' : k'.Passes ds k'') : k.Passes (cs ++ ds) k'' := by
  refine ⟨?_, ?_⟩
  · rw [h.ahead, h'.ahead, List.append_assoc]
  · rw [h'.offset, h.offset, byteLength_append, Nat.add_assoc]

theorem Passes.unique {k k' k'' : Cursor} {cs : List Char} (h : k.Passes cs k')
    (h' : k.Passes cs k'') : k' = k'' := by
  obtain ⟨ahead', offset'⟩ := k'
  obtain ⟨ahead'', offset''⟩ := k''
  have ha : ahead' = ahead'' := List.append_cancel_left (h.ahead.symm.trans h'.ahead)
  have ho : offset' = offset'' := h.offset.trans h'.offset.symm
  rw [ha, ho]

theorem passes_nil {k k' : Cursor} : k.Passes [] k' ↔ k' = k :=
  ⟨fun h => h.unique (Passes.refl k), fun h => h ▸ Passes.refl k⟩

theorem passes_append {k k' : Cursor} {cs ds : List Char} :
    k.Passes (cs ++ ds) k' ↔ ∃ k₁, k.Passes cs k₁ ∧ k₁.Passes ds k' := by
  constructor
  · intro h
    refine ⟨⟨ds ++ k'.ahead, k.offset + byteLength cs⟩, ⟨?_, rfl⟩, ⟨rfl, ?_⟩⟩
    · rw [h.ahead, List.append_assoc]
    · rw [h.offset, byteLength_append, Nat.add_assoc]
  · rintro ⟨k₁, h, h'⟩
    exact h.trans h'

theorem passes_cons {k k' : Cursor} {c : Char} {cs : List Char} :
    k.Passes (c :: cs) k' ↔ ∃ k₁, k.Passes [c] k₁ ∧ k₁.Passes cs k' := by
  rw [← passes_append, List.singleton_append]

/-- The end of a source. -/
theorem passes_start (source : List Char) :
    (Cursor.start source).Passes source ⟨[], byteLength source⟩ := by
  refine ⟨(List.append_nil source).symm, ?_⟩
  simp only [Cursor.start, Nat.zero_add]

end Cursor

namespace Rule

variable {α β : Type} {r s : Rule α} {k k' : Cursor} {a : α}

/-! ### The two outcomes -/

/-- The rule reads `a` from `k` and stops at `k'`. -/
def Reads (r : Rule α) (k : Cursor) (a : α) (k' : Cursor) : Prop := (r k).result = some (a, k')

/-- The rule matches nothing at `k`. -/
def Misses (r : Rule α) (k : Cursor) : Prop := (r k).result = none

theorem misses_iff : r.Misses k ↔ ∀ a k', ¬ r.Reads k a k' := by
  unfold Misses Reads
  cases h : (r k).result with
  | none => simp
  | some p => simp [Prod.ext_iff]

theorem Reads.unique {b : α} {k'' : Cursor} (h : r.Reads k a k') (h' : r.Reads k b k'') :
    a = b ∧ k' = k'' := by
  have h := h.symm.trans h'
  simpa using h

theorem Reads.not_misses (h : r.Reads k a k') : ¬ r.Misses k := fun m => misses_iff.mp m a k' h

/-! ### Single steps -/

@[simp] theorem reads_pure {b : α} : (pure b : Rule α).Reads k a k' ↔ a = b ∧ k' = k := by
  show some (b, k) = some (a, k') ↔ _
  simp [eq_comm]

theorem reads_bind {f : α → Rule β} {b : β} :
    (r >>= f).Reads k b k' ↔ ∃ a k₁, r.Reads k a k₁ ∧ (f a).Reads k₁ b k' := by
  show ((Rule.bind r f) k).result = _ ↔ _
  unfold Rule.bind Reads
  cases h : (r k).result with
  | none => simp [h]
  | some p =>
    obtain ⟨a₁, k₁⟩ := p
    simp [h, and_assoc]

theorem misses_bind {f : α → Rule β} :
    (r >>= f).Misses k ↔ r.Misses k ∨ ∃ a k₁, r.Reads k a k₁ ∧ (f a).Misses k₁ := by
  show ((Rule.bind r f) k).result = _ ↔ _
  unfold Rule.bind Reads Misses
  cases h : (r k).result with
  | none => simp [h]
  | some p =>
    obtain ⟨a₁, k₁⟩ := p
    simp [h, and_assoc]

theorem reads_orElse : (r <|> s).Reads k a k' ↔ r.Reads k a k' ∨ r.Misses k ∧ s.Reads k a k' := by
  show ((Rule.orElse r fun _ => s) k).result = _ ↔ _
  unfold Rule.orElse Reads Misses
  cases h : (r k).result with
  | none => simp [h]
  | some p => simp [h]

theorem misses_orElse : (r <|> s).Misses k ↔ r.Misses k ∧ s.Misses k := by
  show ((Rule.orElse r fun _ => s) k).result = _ ↔ _
  unfold Rule.orElse Misses
  cases h : (r k).result with
  | none => simp [h]
  | some p => simp [h]

theorem reads_optional {o : Option α} : (optional r).Reads k o k' ↔
    (∃ a, o = some a ∧ r.Reads k a k') ∨ o = none ∧ k' = k ∧ r.Misses k := by
  unfold optional Reads Misses
  cases h : (r k).result with
  | none => simp [h, eq_comm]
  | some p =>
    obtain ⟨a₁, k₁⟩ := p
    simp [h, eq_comm, and_left_comm]

@[simp] theorem reads_noteMissing {es : List Expectation} {u : Unit} :
    (noteMissing es).Reads k u k' ↔ k' = k := by
  show some ((), k) = some (u, k') ↔ _
  simp [eq_comm]

@[simp] theorem reads_forget {u : Unit} : forget.Reads k u k' ↔ k' = k := by
  show some ((), k) = some (u, k') ↔ _
  simp [eq_comm]

@[simp] theorem reads_noteCollapse {n : Nat} {u : Unit} :
    (noteCollapse n).Reads k u k' ↔ k' = k := by
  show some ((), k) = some (u, k') ↔ _
  simp [eq_comm]

@[simp] theorem misses_miss {es : List Expectation} : (miss es : Rule α).Misses k := rfl

@[simp] theorem not_reads_fail : ¬ (fail : Rule α).Reads k a k' := by
  intro h
  cases h

@[simp] theorem not_reads_reject {span : Span} {cause : Cause} :
    ¬ (reject span cause : Rule α).Reads k a k' := by
  intro h
  cases h

@[simp] theorem reads_labelled {name : String} : (labelled name r).Reads k a k' ↔ r.Reads k a k' :=
  Iff.rfl

@[simp] theorem misses_labelled {name : String} : (labelled name r).Misses k ↔ r.Misses k :=
  Iff.rfl

@[simp] theorem reads_spanned {span : Span} :
    (spanned r).Reads k (span, a) k' ↔ span = ⟨k.offset, k'.offset⟩ ∧ r.Reads k a k' := by
  unfold spanned Reads
  constructor
  · intro h
    obtain ⟨⟨a₁, k₁⟩, hr, he⟩ := Option.map_eq_some_iff.mp h
    simp only [Prod.mk.injEq] at he
    obtain ⟨⟨rfl, rfl⟩, rfl⟩ := he
    exact ⟨rfl, hr⟩
  · rintro ⟨rfl, h⟩
    exact Option.map_eq_some_iff.mpr ⟨(a, k'), h, rfl⟩

@[simp] theorem misses_spanned : (spanned r).Misses k ↔ r.Misses k := by
  unfold spanned Misses
  simp

end Rule

/-! ### Characters -/

/-- No character of a text is in a class that was tried on all of them. -/
theorem eq_false_of_any {p : Char → Bool} {cs : List Char} (h : cs.any p = false) :
    ∀ c ∈ cs, p c = false := by
  intro c hc
  have := List.any_eq_false.mp h c hc
  simpa using this

/-- The text does not start with a character of the class `p`. -/
def StartsOutside (p : Char → Bool) (cs : List Char) : Prop := ∀ c, cs.head? = some c → p c = false

theorem startsOutside_nil (p : Char → Bool) : StartsOutside p [] := by
  intro c h
  cases h

theorem startsOutside_cons {p : Char → Bool} {c : Char} {cs : List Char} :
    StartsOutside p (c :: cs) ↔ p c = false := by
  simp [StartsOutside]

theorem StartsOutside.mono {p q : Char → Bool} {cs : List Char} (h : StartsOutside q cs)
    (hpq : ∀ c, p c = true → q c = true) : StartsOutside p cs := by
  intro c hc
  cases hp : p c with
  | false => rfl
  | true => exact absurd (hpq c hp) (by rw [h c hc]; decide)

theorem startsOutside_dropWhile (p : Char → Bool) (cs : List Char) :
    StartsOutside p (cs.dropWhile p) := by
  intro c h
  have := List.head?_dropWhile_not p cs
  rw [h] at this
  exact this

theorem takeWhile_eq_nil {p : Char → Bool} {cs : List Char} (h : StartsOutside p cs) :
    cs.takeWhile p = [] := by
  cases cs with
  | nil => rfl
  | cons c cs => rw [List.takeWhile_cons, startsOutside_cons.mp h]; rfl

namespace Rule

variable {k k' : Cursor} {u : Unit} {c : Char} {p : Char → Bool}

/-- A single character takes the cursor to the next one. -/
theorem passes_next (h : k.ahead.head? = some c) : k.Passes [c] k.next := by
  obtain ⟨ahead, offset⟩ := k
  cases ahead with
  | nil => cases h
  | cons d ds =>
    obtain rfl : d = c := by simpa using h
    exact ⟨rfl, by simp [Cursor.next]⟩

theorem result_symbol : (symbol c k).result =
    if k.ahead.head? = some c then some ((), k.next) else none := by
  unfold symbol
  split <;> rfl

theorem reads_symbol : (symbol c).Reads k u k' ↔ k.Passes [c] k' := by
  unfold Reads
  rw [result_symbol]
  by_cases h : k.ahead.head? = some c
  · rw [if_pos h]
    constructor
    · intro e
      obtain rfl : k.next = k' := by simpa using e
      exact passes_next h
    · intro e
      rw [(passes_next h).unique e]
  · rw [if_neg h]
    constructor
    · intro e
      cases e
    · intro e
      exact absurd (by rw [e.ahead]; rfl) h

theorem misses_symbol : (symbol c).Misses k ↔ k.ahead.head? ≠ some c := by
  unfold Misses
  rw [result_symbol]
  split
  · next h => simp [h]
  · next h => simp [h]

theorem reads_keyword {w : List Char} : (keyword w).Reads k u k' ↔ k.Passes w k' := by
  induction w generalizing k with
  | nil =>
    rw [Cursor.passes_nil]
    show some ((), k) = some (u, k') ↔ _
    simp [eq_comm (a := k)]
  | cons c w ih =>
    rw [keyword, reads_bind, Cursor.passes_cons]
    constructor
    · rintro ⟨_, k₁, h₁, h₂⟩
      exact ⟨k₁, reads_symbol.mp h₁, ih.mp h₂⟩
    · rintro ⟨k₁, h₁, h₂⟩
      exact ⟨(), k₁, reads_symbol.mpr h₁, ih.mpr h₂⟩

theorem misses_keyword {w : List Char} (h : k.ahead.head? ≠ some c) : (keyword (c :: w)).Misses k :=
  misses_bind.mpr (.inl (misses_symbol.mpr h))

theorem reads_endOfInput : endOfInput.Reads k u k' ↔ k.ahead = [] ∧ k' = k := by
  have hr : (endOfInput k).result = if k.ahead.isEmpty then some ((), k) else none := by
    unfold endOfInput
    split <;> rfl
  unfold Reads
  rw [hr]
  cases k.ahead with
  | nil => simp [eq_comm (a := k)]
  | cons c cs => simp

/-- A run is as long as it can be. -/
theorem reads_run {cs : List Char} : (run p).Reads k cs k' ↔
    k.Passes cs k' ∧ (∀ c ∈ cs, p c = true) ∧ StartsOutside p k'.ahead := by
  unfold run Reads Cursor.behind
  constructor
  · intro h
    simp only [Option.some.injEq, Prod.mk.injEq] at h
    obtain ⟨rfl, rfl⟩ := h
    exact ⟨⟨(List.takeWhile_append_dropWhile).symm, rfl⟩,
      fun c hc => List.mem_takeWhile_imp hc, startsOutside_dropWhile p _⟩
  · rintro ⟨h, hp, hs⟩
    have ht : k.ahead.takeWhile p = cs := by
      rw [h.ahead, List.takeWhile_append_of_pos hp, takeWhile_eq_nil hs, List.append_nil]
    have hd : k.ahead.dropWhile p = k'.ahead := by
      have he : cs ++ k.ahead.dropWhile p = cs ++ k'.ahead := by
        rw [← h.ahead, ← ht, List.takeWhile_append_dropWhile]
      exact List.append_cancel_left he
    simp only [ht, hd, ← h.offset]

theorem reads_one : (one p).Reads k c k' ↔ p c = true ∧ k.Passes [c] k' := by
  unfold Reads
  obtain ⟨ahead, offset⟩ := k
  cases ahead with
  | nil =>
    constructor
    · intro h
      cases h
    · rintro ⟨-, h⟩
      cases h.ahead
  | cons d ds =>
    have hr : (one p ⟨d :: ds, offset⟩).result =
        if p d then some (d, (⟨d :: ds, offset⟩ : Cursor).next) else none := by
      simp only [one]
      split <;> rfl
    have hn := passes_next (k := ⟨d :: ds, offset⟩) (c := d) rfl
    rw [hr]
    constructor
    · intro h
      split at h
      · next hp =>
        simp only [Option.some.injEq, Prod.mk.injEq] at h
        obtain ⟨rfl, rfl⟩ := h
        exact ⟨hp, hn⟩
      · cases h
    · rintro ⟨hp, h⟩
      have ha : d :: ds = c :: k'.ahead := h.ahead
      obtain rfl : d = c := (List.cons.inj ha).1
      rw [if_pos hp, h.unique hn]

theorem misses_one : (one p).Misses k ↔ StartsOutside p k.ahead := by
  unfold Misses one
  obtain ⟨ahead, offset⟩ := k
  cases ahead with
  | nil => simp [miss, startsOutside_nil]
  | cons d ds =>
    rw [startsOutside_cons]
    cases h : p d <;> simp [h, miss]

end Rule

end JsonSelect.Reading
