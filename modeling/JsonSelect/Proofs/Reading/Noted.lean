import JsonSelect.Proofs.Reading.Lists
import JsonSelect.Reading.Grammar

/-! # What rules note

The failure that is noted behind a step depends on the one before it. `r.Turns J J' k` says that the step
of `r` at `k` leads from a noted failure with `J` to one with `J'`, whether the rule matches or not; there
is one lemma for each combination of rules, `turns_*`, and `keeps_*` for a property that stays.

Rules note a failure only by merging it with the one that is there, which leaves one of the two in its
place (`Failure.merge_eq`). So two sorts of properties are kept, both called absorbing (`Absorbs`):

* `Noted R`: the failure, if there is one, has its place and span in the relation `R`.
* `Held f`: the failure is `f`, as long as all others are noted before its place. -/

namespace JsonSelect.Reading

/-! ### Properties of the noted failure -/

/-- The place and the span of the noted failure are in the relation `R`. -/
def Noted (R : Nat → Span → Prop) (o : Option Failure) : Prop := ∀ f, o = some f → R f.place f.span

/-- The noted failure is `f`. -/
def Held (f : Failure) (o : Option Failure) : Prop := o = some f

/-- The place is before `p`. -/
def Before (p : Nat) (place : Nat) (_ : Span) : Prop := place < p

/-- The failure that is noted when `f` is added. -/
def added (combine : List Expectation → List Expectation → List Expectation) (o : Option Failure)
    (f : Failure) : Failure := o.elim f (·.merge combine f)

/-- A failure with its place and span in `R` can be added to one with `J`. -/
def Absorbs (R : Nat → Span → Prop) (J : Option Failure → Prop) : Prop :=
  ∀ combine o f, J o → R f.place f.span → J (some (added combine o f))

variable {R : Nat → Span → Prop} {J J' J₁ I : Option Failure → Prop} {f g : Failure} {p : Nat}

theorem noted_none (R : Nat → Span → Prop) : Noted R none := by
  intro f h
  cases h

/-- Of two failures one remains, or the known one with another cause. -/
theorem Failure.merge_eq (combine : List Expectation → List Expectation → List Expectation)
    (f g : Failure) : f.merge combine g = g ∨ ∃ cause, f.merge combine g = { f with cause := cause } := by
  unfold Failure.merge
  split
  · exact .inl rfl
  · split
    · exact .inr ⟨f.cause, rfl⟩
    · exact .inr ⟨_, rfl⟩

theorem Failure.merge_of_lt (combine : List Expectation → List Expectation → List Expectation)
    (h : f.place < g.place) : f.merge combine g = g := if_pos h

theorem Failure.merge_of_gt (combine : List Expectation → List Expectation → List Expectation)
    (h : g.place < f.place) : f.merge combine g = f := by
  rw [Failure.merge, if_neg (Nat.lt_asymm h), if_pos h]

theorem Failure.merge_of_eq (combine : List Expectation → List Expectation → List Expectation)
    (h : g.place = f.place) : f.merge combine g = { f with cause := f.cause.join combine g.cause } := by
  rw [Failure.merge, h, if_neg (Nat.lt_irrefl _), if_neg (Nat.lt_irrefl _)]

theorem absorbs_noted (R : Nat → Span → Prop) : Absorbs R (Noted R) := by
  intro combine o f ho hf g hg
  obtain rfl := Option.some.inj hg
  cases o with
  | none => exact hf
  | some known =>
    rcases known.merge_eq combine f with h | ⟨cause, h⟩ <;> rw [added, Option.elim_some, h]
    · exact hf
    · exact ho known rfl

theorem absorbs_held (f : Failure) : Absorbs (Before f.place) (Held f) := by
  rintro combine _ g rfl hg
  exact congrArg some (Failure.merge_of_gt combine hg)

/-- A failure behind all that is noted takes its place. -/
theorem added_of_before {o : Option Failure} (h : Noted (Before f.place) o)
    (combine : List Expectation → List Expectation → List Expectation) : added combine o f = f := by
  cases o with
  | none => rfl
  | some known => exact Failure.merge_of_lt combine (h known rfl)

theorem Failure.place_relabel (f : Failure) (name : String) (start : Nat) :
    (f.relabel name start).place = f.place ∧ (f.relabel name start).span = f.span := by
  unfold Failure.relabel
  split <;> exact ⟨rfl, rfl⟩

namespace Rule

variable {α β : Type} {r s : Rule α} {h : α → Rule β} {k k' : Cursor} {a : α}

/-- The step of `r` at `k` leads from a noted failure with `J` to one with `J'`. -/
def Turns (r : Rule α) (J J' : Option Failure → Prop) (k : Cursor) : Prop :=
  ∀ n : Notes, J n.failure → J' ((r k).note n).failure

/-- The step of `r` at `k` keeps `J`. -/
abbrev Keeps (r : Rule α) (J : Option Failure → Prop) (k : Cursor) : Prop := r.Turns J J k

/-! ### Combinations of two rules -/

theorem note_bind_of_reads (hr : r.Reads k a k') (n : Notes) :
    ((r >>= h) k).note n = (h a k').note ((r k).note n) := by
  show (Rule.bind r h k).note n = _
  unfold Reads at hr
  simp only [Rule.bind, hr]

theorem note_bind_of_misses (hr : r.Misses k) (n : Notes) : ((r >>= h) k).note n = (r k).note n := by
  show (Rule.bind r h k).note n = _
  unfold Misses at hr
  simp only [Rule.bind, hr]

theorem note_orElse_of_reads (hr : r.Reads k a k') (n : Notes) :
    ((r <|> s) k).note n = (r k).note n := by
  show (Rule.orElse r (fun _ => s) k).note n = _
  unfold Reads at hr
  simp only [Rule.orElse, hr]

theorem note_orElse_of_misses (hr : r.Misses k) (n : Notes) :
    ((r <|> s) k).note n = (s k).note ((r k).note n) := by
  show (Rule.orElse r (fun _ => s) k).note n = _
  unfold Misses at hr
  simp only [Rule.orElse, hr]

theorem note_optional (n : Notes) : (optional r k).note n = (r k).note n := by
  unfold optional
  cases hr : (r k).result <;> simp only [hr]

theorem keeps_pure : (pure a : Rule α).Keeps J k := fun _ h => h

theorem turns_bind_of_reads (hr : r.Reads k a k') (h₁ : r.Turns J J₁ k) (h₂ : (h a).Turns J₁ J' k') :
    (r >>= h).Turns J J' k := by
  intro n hn
  rw [note_bind_of_reads hr]
  exact h₂ _ (h₁ n hn)

theorem turns_bind_of_misses (hr : r.Misses k) (h₁ : r.Turns J J' k) : (r >>= h).Turns J J' k := by
  intro n hn
  rw [note_bind_of_misses hr]
  exact h₁ n hn

theorem turns_bind (h₁ : r.Turns J J' k) (h₂ : ∀ a k', r.Reads k a k' → (h a).Keeps J' k') :
    (r >>= h).Turns J J' k := by
  cases hr : (r k).result with
  | none => exact turns_bind_of_misses hr h₁
  | some ak => exact turns_bind_of_reads hr h₁ (h₂ _ _ hr)

/-- Where a rule misses, it does all that it does together with the next one. -/
theorem turns_of_bind (hr : r.Misses k) (hb : (r >>= h).Turns J J' k) : r.Turns J J' k := by
  intro n hn
  rw [← note_bind_of_misses (h := h) hr]
  exact hb n hn

theorem turns_orElse_of_misses (hr : r.Misses k) (h₁ : r.Turns J J₁ k) (h₂ : s.Turns J₁ J' k) :
    (r <|> s).Turns J J' k := by
  intro n hn
  rw [note_orElse_of_misses hr]
  exact h₂ _ (h₁ n hn)

theorem turns_orElse_of_reads (hr : r.Reads k a k') (h₁ : r.Turns J J' k) : (r <|> s).Turns J J' k := by
  intro n hn
  rw [note_orElse_of_reads hr]
  exact h₁ n hn

theorem keeps_orElse (h₁ : r.Keeps J k) (h₂ : r.Misses k → s.Keeps J k) : (r <|> s).Keeps J k := by
  cases hr : (r k).result with
  | none => exact turns_orElse_of_misses hr h₁ (h₂ hr)
  | some ak => exact turns_orElse_of_reads hr h₁

theorem turns_optional (h₁ : r.Turns J J' k) : (optional r).Turns J J' k := by
  intro n hn
  rw [note_optional]
  exact h₁ n hn

theorem turns_spanned (h₁ : r.Turns J J' k) : (spanned r).Turns J J' k := h₁

/-! ### Single steps -/

theorem keeps_run {c : Char → Bool} : (run c).Keeps J k := fun _ h => h

theorem keeps_noteCollapse {count : Nat} : (noteCollapse count).Keeps J k := by
  intro n hn
  show J (n.collapse count).failure
  unfold Notes.collapse
  split <;> exact hn

theorem turns_forget (hJ : J' none) : forget.Turns J J' k := fun _ _ => hJ

section
variable (hJ : Absorbs R J)
include hJ

theorem keeps_noteMissing {es : List Expectation} (hR : R k.offset k.cell) :
    (noteMissing es).Keeps J k :=
  fun n hn => hJ addMissing n.failure (k.missing es) hn hR

theorem keeps_reject {span : Span} {cause : Cause} (hR : R span.start span) :
    (reject span cause : Rule α).Keeps J k :=
  fun n hn => hJ longerFirst n.failure ⟨span.start, cause, span⟩ hn hR

/-- A step that notes nothing, or only what is missed at the cursor. -/
theorem keeps_of_eq (es : List Expectation) (hR : R k.offset k.cell)
    (hs : (∃ result, r k = ⟨result, id⟩) ∨ r k = miss es k) : r.Keeps J k := by
  intro n hn
  rcases hs with ⟨result, hs⟩ | hs
  · rwa [hs]
  · rw [hs]
    exact hJ addMissing n.failure (k.missing es) hn hR

theorem keeps_symbol {c : Char} (hR : R k.offset k.cell) : (symbol c).Keeps J k := by
  refine keeps_of_eq hJ [.symbol c] hR ?_
  by_cases hc : k.ahead.head? = some c
  · exact .inl ⟨_, if_pos hc⟩
  · exact .inr (if_neg hc)

theorem keeps_endOfInput (hR : R k.offset k.cell) : endOfInput.Keeps J k := by
  refine keeps_of_eq hJ [.endOfInput] hR ?_
  by_cases hc : k.ahead.isEmpty = true
  · exact .inl ⟨_, if_pos hc⟩
  · exact .inr (if_neg hc)

theorem keeps_one {c : Char → Bool} (hR : R k.offset k.cell) : (one c).Keeps J k := by
  refine keeps_of_eq hJ [] hR ?_
  unfold one
  split
  · split
    · exact .inl ⟨_, rfl⟩
    · exact .inr rfl
  · exact .inr rfl

end

theorem keeps_symbol_of_reads {c : Char} {u : Unit} (hr : (symbol c).Reads k u k') :
    (symbol c).Keeps J k := by
  have hc : k.ahead.head? = some c := by rw [(reads_symbol.mp hr).ahead]; rfl
  have hs : symbol c k = ⟨some ((), k.next), id⟩ := if_pos hc
  exact fun n hn => by rwa [hs]

/-- What was expected takes the place of what is noted before it. -/
theorem turns_noteMissing (es : List Expectation) :
    (noteMissing es).Turns (Noted (Before k.offset)) (Held (k.missing es)) k :=
  fun _ hn => congrArg some (added_of_before (f := k.missing es) hn addMissing)

theorem turns_reject (span : Span) (cause : Cause) : (reject span cause : Rule α).Turns
    (Noted (Before span.start)) (Held ⟨span.start, cause, span⟩) k :=
  fun _ hn => congrArg some (added_of_before (f := ⟨span.start, cause, span⟩) hn longerFirst)

theorem turns_symbol {c : Char} (hc : k.ahead.head? ≠ some c) :
    (symbol c).Turns (Noted (Before k.offset)) (Held (k.missing [.symbol c])) k := by
  have hs : symbol c k = miss [.symbol c] k := if_neg hc
  intro n hn
  rw [hs]
  exact congrArg some (added_of_before (f := k.missing [.symbol c]) hn addMissing)

/-- What is expected at one place adds up. -/
theorem added_missing (combine : List Expectation → List Expectation → List Expectation) (k : Cursor)
    (es es' : List Expectation) (found : Option Char) (span : Span) :
    added combine (some ⟨k.offset, .unexpected es found, span⟩) (k.missing es') =
      ⟨k.offset, .unexpected (combine es es') found, span⟩ :=
  Failure.merge_of_eq (f := ⟨k.offset, .unexpected es found, span⟩) combine rfl

theorem turns_noteMissing_held {es es' : List Expectation} {found : Option Char} {span : Span} :
    (noteMissing es').Turns (Held ⟨k.offset, .unexpected es found, span⟩)
      (Held ⟨k.offset, .unexpected (addMissing es es') found, span⟩) k := by
  intro n hn
  show some (added addMissing n.failure (k.missing es')) = _
  rw [show n.failure = _ from hn, added_missing]

theorem turns_symbol_held {c : Char} (hc : k.ahead.head? ≠ some c) {es : List Expectation} :
    (symbol c).Turns (Held (k.missing es)) (Held (k.missing (addMissing es [.symbol c]))) k := by
  have hs : symbol c k = miss [.symbol c] k := if_neg hc
  intro n hn
  rw [hs]
  show some (added addMissing n.failure (k.missing [.symbol c])) = _
  rw [show n.failure = _ from hn, Cursor.missing, added_missing]
  rfl

/-! ### Blanks, labels and lists -/

theorem keeps_blanks : blanks.Keeps J k := turns_bind keeps_run fun _ _ _ => keeps_pure

theorem turns_padded {k₁ : Cursor} (hb : blanks.Reads k () k₁) (hr : r.Turns J J' k₁) :
    (padded r).Turns J J' k :=
  turns_bind_of_reads hb keeps_blanks <| turns_bind hr fun _ _ _ => turns_bind keeps_blanks fun _ _ _ =>
    keeps_pure

theorem keeps_padded (hr : ∀ k₁, blanks.Reads k () k₁ → r.Keeps J k₁) : (padded r).Keeps J k :=
  turns_bind keeps_blanks fun _ k₁ h₁ => turns_bind (hr k₁ h₁) fun _ _ _ => turns_bind keeps_blanks fun _ _ _ =>
    keeps_pure

/-- What is noted behind a label: the failure inside, relabelled and added to the one before it. -/
theorem turns_labelled {name : String} (hr : r.Turns (· = none) I k)
    (hI : ∀ o i, J o → I i →
      J' (i.elim o fun f => some (added longerFirst o (f.relabel name k.offset)))) :
    (labelled name r).Turns J J' k := by
  intro n hn
  have hi := hI n.failure _ hn (hr n.forget rfl)
  show J' ((((r k).note n.forget).failure.elim _ _ : Notes).failure)
  cases h : ((r k).note n.forget).failure with
  | none => rwa [h] at hi
  | some f => rwa [h] at hi

theorem keeps_labelled {name : String} (hJ : Absorbs R J) (hr : r.Keeps (Noted R) k) :
    (labelled name r).Keeps J k := by
  refine turns_labelled (I := Noted R) (fun n hn => hr n ?_) fun o i ho hi => ?_
  · rw [hn]
    exact noted_none R
  · cases i with
    | none => exact ho
    | some f =>
      obtain ⟨hplace, hspan⟩ := f.place_relabel name k.offset
      refine hJ longerFirst o _ ho ?_
      rw [hplace, hspan]
      exact hi f rfl

/-- A failure that is noted inside a label behind its start stays as it is. -/
theorem turns_labelled_of_held {name : String} (hf : k.offset < f.place)
    (hr : r.Turns (Noted (Before f.place)) (Held f) k)
    (hJ : ∀ o, J o → J' (some (added longerFirst o f))) : (labelled name r).Turns J J' k := by
  refine turns_labelled (I := Held f) (fun n hn => hr n ?_) fun o i ho hi => ?_
  · rw [hn]
    exact noted_none _
  · obtain rfl : i = some f := hi
    have hrelabel : f.relabel name k.offset = f := if_neg (Nat.ne_of_gt hf)
    rw [Option.elim_some, hrelabel]
    exact hJ o ho

theorem turns_labelled_held {name : String} (hf : k.offset < f.place)
    (hr : r.Turns (Noted (Before f.place)) (Held f) k) :
    (labelled name r).Turns (Noted (Before f.place)) (Held f) k :=
  turns_labelled_of_held hf hr fun _ ho => congrArg some (added_of_before ho longerFirst)

section
variable {item : Rule α} {separator : Rule Unit} {as : List α}

/-- A chain of items on which `J` is kept, up to the place where no further item is found: what is noted
there leads to `J'`. -/
inductive Row (item : Rule α) (separator : Rule Unit) (J J' : Option Failure → Prop) :
    Cursor → List α → Cursor → Prop
  | stop {k : Cursor} (hm : (do separator; item : Rule α).Misses k)
      (hn : (do separator; item : Rule α).Turns J J' k) : Row item separator J J' k [] k
  | more {k k₁ k₂ k' : Cursor} {a : α} {as : List α} (hs : separator.Reads k () k₁)
      (hi : item.Reads k₁ a k₂) (hn : (do separator; item : Rule α).Keeps J k)
      (h : Row item separator J J' k₂ as k') : Row item separator J J' k (a :: as) k'

theorem Row.chain (h : Row item separator J J' k as k') : Chain item separator k as k' := by
  induction h with
  | stop hm _ => exact .stop hm
  | more hs hi _ _ ih => exact .more hs hi ih

theorem turns_furtherItems (hp : Progress item separator) (h : Row item separator J J' k as k') :
    ∀ bound : List Char, k.ahead.length ≤ bound.length →
      (furtherItems item separator bound).Turns J J' k := by
  induction h with
  | @stop k hm hn =>
    intro bound hb
    cases bound with
    | nil =>
      have hs : separator.Misses k := by
        rw [misses_iff]
        intro u k₁ h
        have := hp.separator k u k₁ h
        simp only [List.length_nil] at hb
        omega
      exact turns_bind (turns_optional (turns_of_bind hs hn)) fun _ _ _ => keeps_pure
    | cons c bound =>
      have hr : (optional (do separator; item)).Reads k none k := reads_optional.mpr (.inr ⟨rfl, rfl, hm⟩)
      exact turns_bind_of_reads hr (turns_optional hn) keeps_pure
  | @more k k₁ k₂ k' a as hs hi hn _ ih =>
    intro bound hb
    cases bound with
    | nil =>
      have := hp.separator _ _ _ hs
      simp only [List.length_nil] at hb
      omega
    | cons c bound =>
      have hr : (optional (do separator; item)).Reads k (some a) k₂ :=
        reads_optional.mpr (.inl ⟨a, rfl, reads_bind.mpr ⟨(), k₁, hs, hi⟩⟩)
      exact turns_bind_of_reads hr (turns_optional hn)
        (turns_bind (ih bound (hp.length_le hb hs hi)) fun _ _ _ => keeps_pure)

theorem turns_separated_nil (hm : item.Misses k) (hn : item.Turns J J' k) :
    (separated item separator).Turns J J' k :=
  turns_bind_of_reads (reads_optional.mpr (.inr ⟨rfl, rfl, hm⟩)) (turns_optional hn) keeps_pure

theorem turns_separated_cons (hp : Progress item separator) {k₁ : Cursor} (hi : item.Reads k a k₁)
    (hn : item.Keeps J k) (h : Row item separator J J' k₁ as k') :
    (separated item separator).Turns J J' k :=
  turns_bind_of_reads (reads_optional.mpr (.inl ⟨a, rfl, hi⟩)) (turns_optional hn)
    (turns_bind (turns_furtherItems hp h k₁.ahead le_rfl) fun _ _ _ => keeps_pure)

end

end Rule

/-- A sign is missed in the span of the character that stands in its place, if not at its start. -/
theorem keeps_sign {k : Cursor} (hJ : Absorbs R J) (hR : ∀ place, R place k.cell) : sign.Keeps J k := by
  have hsign : (∃ result, sign k = ⟨result, id⟩) ∨
      ∃ place cause, (sign k).note = fun n => n.expect ⟨place, cause, k.cell⟩ := by
    unfold sign
    split
    · split
      · exact .inl ⟨_, rfl⟩
      · exact .inr ⟨_, _, rfl⟩
    · exact .inr ⟨_, _, rfl⟩
  intro n hn
  rcases hsign with ⟨result, hs⟩ | ⟨place, cause, hs⟩
  · rwa [hs]
  · rw [hs]
    exact hJ addMissing n.failure ⟨place, cause, k.cell⟩ hn (hR place)

/-- Contents leave nothing noted. -/
theorem turns_contents {k : Cursor} (hJ : J' none) : contents.Turns J J' k := fun _ _ => hJ

end JsonSelect.Reading
