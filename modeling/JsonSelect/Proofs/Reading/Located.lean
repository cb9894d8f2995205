import JsonSelect.Proofs.Reading.Noted
import JsonSelect.Proofs.Reading.Numbers
import JsonSelect.Proofs.Reading.Scalars

/-! # Where failures show

Whatever a rule does with a source, the failure that it leaves noted shows a stretch of the source: its span
starts and ends between two characters (`Marks`). A rule is *located* when it keeps this and goes on through
the source. Every combination of located rules is located, so the grammar is (`located_documentWithin`). -/

namespace JsonSelect.Reading

open Rule Text

variable {α β : Type} {source : List Char} {k k' : Cursor}

/-- The cursor stands somewhere in the source. -/
def Cursor.In (k : Cursor) (source : List Char) : Prop := ∃ cs, (Cursor.start source).Passes cs k

/-- The span starts and ends between two characters of the source. -/
def Marks (source : List Char) (_ : Nat) (span : Span) : Prop :=
  ∃ (k k' : Cursor) (cs : List Char), k.In source ∧ k.Passes cs k' ∧ span = ⟨k.offset, k'.offset⟩

theorem Cursor.In.passes {cs : List Char} (h : k.In source) (hp : k.Passes cs k') : k'.In source := by
  obtain ⟨ds, hs⟩ := h
  exact ⟨ds ++ cs, hs.trans hp⟩

theorem Cursor.passes_cell (k : Cursor) : ∃ cs, k.Passes cs k.next := by
  obtain ⟨ahead, offset⟩ := k
  cases ahead with
  | nil => exact ⟨[], .refl _⟩
  | cons c cs => exact ⟨[c], passes_next rfl⟩

theorem Cursor.In.marks_cell (h : k.In source) (place : Nat) : Marks source place k.cell := by
  obtain ⟨cs, hp⟩ := k.passes_cell
  exact ⟨k, k.next, cs, h, hp, rfl⟩

/-- A rule that keeps the noted failure in the source and goes on through it. -/
structure Located (source : List Char) (r : Rule α) : Prop where
  keeps : ∀ {k}, k.In source → r.Keeps (Noted (Marks source)) k
  passes : ∀ {k a k'}, r.Reads k a k' → ∃ cs, k.Passes cs k'

namespace Located

variable {r s : Rule α}

/-! ### Combinations -/

/-- A rule that keeps what is noted and reads nothing. -/
theorem of_still (hk : ∀ {k}, k.In source → r.Keeps (Noted (Marks source)) k)
    (hr : ∀ {k a k'}, r.Reads k a k' → k' = k) : Located source r :=
  ⟨hk, fun h => ⟨[], Cursor.passes_nil.mpr (hr h)⟩⟩

theorem bind {h : α → Rule β} (hr : Located source r) (hh : ∀ a, Located source (h a)) :
    Located source (r >>= h) where
  keeps hk := turns_bind (hr.keeps hk) fun a k₁ h₁ =>
    (hh a).keeps (hk.passes (hr.passes h₁).choose_spec)
  passes hrb := by
    obtain ⟨a, k₁, h₁, h₂⟩ := reads_bind.mp hrb
    obtain ⟨cs, hp⟩ := hr.passes h₁
    obtain ⟨ds, hp'⟩ := (hh a).passes h₂
    exact ⟨cs ++ ds, hp.trans hp'⟩

theorem orElse (hr : Located source r) (hs : Located source s) : Located source (r <|> s) where
  keeps hk := keeps_orElse (hr.keeps hk) fun _ => hs.keeps hk
  passes h := by
    rcases reads_orElse.mp h with h | ⟨-, h⟩
    · exact hr.passes h
    · exact hs.passes h

theorem optional (hr : Located source r) : Located source (Rule.optional r) where
  keeps hk := turns_optional (hr.keeps hk)
  passes h := by
    rcases reads_optional.mp h with ⟨a, -, h⟩ | ⟨-, rfl, -⟩
    · exact hr.passes h
    · exact ⟨[], .refl _⟩

theorem labelled (name : String) (hr : Located source r) : Located source (Rule.labelled name r) where
  keeps hk := keeps_labelled (absorbs_noted _) (hr.keeps hk)
  passes h := hr.passes (reads_labelled.mp h)

theorem spanned (hr : Located source r) : Located source (Rule.spanned r) where
  keeps hk := turns_spanned (hr.keeps hk)
  passes h := hr.passes (reads_spanned.mp h).2

/-- What was read can be rejected as a whole. -/
theorem rejected {h : Span × α → Rule β} (hr : Located source r)
    (hh : ∀ span a, (∃ b, h (span, a) = Pure.pure b) ∨ ∃ cause, h (span, a) = reject span cause) :
    Located source (Rule.spanned r >>= h) where
  keeps {k} hk := turns_bind (hr.spanned.keeps hk) fun ⟨span, a⟩ k' hs => by
    obtain ⟨rfl, hra⟩ := reads_spanned.mp hs
    obtain ⟨cs, hp⟩ := hr.passes hra
    rcases hh ⟨k.offset, k'.offset⟩ a with ⟨b, he⟩ | ⟨cause, he⟩
    · rw [he]
      exact keeps_pure
    · rw [he]
      exact keeps_reject (absorbs_noted _) ⟨k, k', cs, hk, hp, rfl⟩
  passes hrb := by
    obtain ⟨⟨span, a⟩, k₁, h₁, h₂⟩ := reads_bind.mp hrb
    rcases hh span a with ⟨b, he⟩ | ⟨cause, he⟩
    · rw [he] at h₂
      obtain ⟨-, rfl⟩ := reads_pure.mp h₂
      exact hr.passes (reads_spanned.mp h₁).2
    · rw [he] at h₂
      exact absurd h₂ not_reads_reject

end Located

/-! ### Single steps -/

theorem located_pure (a : α) : Located source (pure a : Rule α) :=
  Located.of_still (fun _ => keeps_pure) fun h => (reads_pure.mp h).2

theorem located_noteMissing (es : List Expectation) : Located source (noteMissing es) :=
  .of_still (fun hk => keeps_noteMissing (absorbs_noted _) (hk.marks_cell _)) reads_noteMissing.mp

theorem located_forget : Located source forget :=
  .of_still (fun _ => turns_forget (noted_none _)) reads_forget.mp

theorem located_noteCollapse (count : Nat) : Located source (noteCollapse count) :=
  .of_still (fun _ => keeps_noteCollapse) reads_noteCollapse.mp

theorem located_fail : Located source (fail : Rule α) :=
  ⟨fun _ _ h => h, fun h => absurd h not_reads_fail⟩

theorem located_symbol (c : Char) : Located source (symbol c) :=
  ⟨fun hk => keeps_symbol (absorbs_noted _) (hk.marks_cell _), fun h => ⟨_, reads_symbol.mp h⟩⟩

theorem located_keyword : ∀ w : List Char, Located source (keyword w)
  | [] => located_pure ()
  | c :: w => (located_symbol c).bind fun _ => located_keyword w

theorem located_endOfInput : Located source endOfInput :=
  .of_still (fun hk => keeps_endOfInput (absorbs_noted _) (hk.marks_cell _)) fun h =>
    (reads_endOfInput.mp h).2

theorem located_run (p : Char → Bool) : Located source (run p) :=
  ⟨fun _ => keeps_run, fun h => ⟨_, (reads_run.mp h).1⟩⟩

theorem located_one (p : Char → Bool) : Located source (one p) :=
  ⟨fun hk => keeps_one (absorbs_noted _) (hk.marks_cell _), fun h => ⟨_, (reads_one.mp h).2⟩⟩

theorem located_blanks : Located source blanks := (located_run isBlank).bind fun _ => located_pure ()

/-! ### Blanks and rows of items -/

theorem Located.padded {r : Rule α} (hr : Located source r) : Located source (Rule.padded r) :=
  located_blanks.bind fun _ => hr.bind fun a => located_blanks.bind fun _ => located_pure a

section
variable {item : Rule α} {separator : Rule Unit} (hi : Located source item)
  (hs : Located source separator)
include hi hs

theorem located_furtherItems : ∀ bound : List Char, Located source (furtherItems item separator bound)
  | [] => hs.optional.bind fun _ => located_pure []
  | _ :: bound => (hs.bind fun _ => hi).optional.bind fun next => by
    cases next with
    | none => exact located_pure []
    | some a => exact (located_furtherItems bound).bind fun more => located_pure (a :: more)

theorem located_separated : Located source (separated item separator) :=
  hi.optional.bind fun first => by
    cases first with
    | none => exact located_pure []
    | some a =>
      refine Located.bind ⟨fun {k} hk => ?_, fun {k as k'} h => ?_⟩ fun more => located_pure (a :: more)
      · exact (located_furtherItems hi hs k.ahead).keeps hk
      · exact (located_furtherItems hi hs k.ahead).passes h

end

/-! ### The grammar -/

theorem located_digits : Located source digits :=
  (located_one _).bind fun c => (located_run _).bind fun cs => (located_noteMissing []).bind fun _ =>
    located_pure (c :: cs)

theorem located_whole : Located source whole := by
  have hnonzero : Located source nonzeroWhole :=
    (located_one _).bind fun c => (located_run _).bind fun cs => located_forget.bind fun _ =>
      located_pure (c :: cs)
  exact hnonzero.orElse ((located_symbol '0').bind fun _ => located_pure ['0'])

theorem located_sign : Located source sign :=
  ⟨fun hk => keeps_sign (absorbs_noted _) hk.marks_cell, fun h => ⟨_, (reads_sign.mp h).2⟩⟩

theorem located_exponent : Located source exponent := by
  have hletter : Located source exponentLetter :=
    ((located_symbol 'e').bind fun _ => located_pure 'e').orElse
      ((located_symbol 'E').bind fun _ => located_pure 'E')
  exact .labelled _ (hletter.bind fun _ => located_sign.optional.bind fun _ =>
    located_digits.bind fun _ => located_pure _)

theorem located_numberLiteral : Located source numberLiteral := by
  have hfraction : Located source fraction := (located_symbol '.').bind fun _ => located_digits
  exact (located_symbol '-').optional.bind fun _ => located_whole.bind fun _ => hfraction.optional.bind fun _ =>
    located_exponent.optional.bind fun _ => located_pure _

theorem located_number : Located source number := by
  refine .labelled _ (located_numberLiteral.rejected fun span l => ?_)
  cases hn : l.number? with
  | some n => exact .inl ⟨n, by simp only [hn]⟩
  | none => exact .inr ⟨_, by simp only [hn]; rfl⟩

theorem located_contents : Located source contents := by
  refine ⟨fun _ => ?_, fun h => ?_⟩
  · exact turns_contents (noted_none _)
  · obtain ⟨raw, -, hp⟩ := spells_of_reads_contents h
    exact ⟨raw, hp⟩

theorem located_stringLiteral : Located source stringLiteral := by
  have hdecoded : Located source decoded := located_contents.rejected fun span ps => by
    cases hd : decode ps with
    | ok cs => exact .inl ⟨_, by simp only [hd]; rfl⟩
    | error e => exact .inr ⟨_, by simp only [hd]; rfl⟩
  exact .labelled _ ((located_symbol '"').bind fun _ => hdecoded.bind fun s =>
    (located_symbol '"').bind fun _ => located_pure s)

theorem located_bracketed {left right : Char} {inside : Rule α} (h : Located source inside) :
    Located source (bracketed left right inside) :=
  (located_symbol left).bind fun _ => h.padded.bind fun a => (located_symbol right).bind fun _ => located_pure a

section
variable {value : Rule Node} (hv : Located source value)
include hv

theorem located_array : Located source (array value) :=
  .labelled _ (located_bracketed (located_separated hv (located_symbol ',').padded))

theorem located_object : Located source (object value) := by
  have hmember : Located source (member value) :=
    .labelled _ (located_stringLiteral.spanned.bind fun _ =>
      (located_symbol ':').padded.bind fun _ => hv.bind fun n => located_pure _)
  have hmembers : Located source (members value) :=
    (located_separated hmember (located_symbol ',').padded).bind fun all =>
      (located_noteCollapse _).bind fun _ => located_pure _
  exact .labelled _ (located_bracketed hmembers)

theorem located_spanless : Located source (spanless value) := by
  have hconstant : ∀ w s, Located source (constant w s) := fun w s =>
    .labelled _ ((located_keyword w.toList).bind fun _ => located_pure _)
  exact (hconstant _ _).orElse <| (hconstant _ _).orElse <| (hconstant _ _).orElse <|
    (located_number.bind fun _ => located_pure _).orElse <|
    (located_stringLiteral.bind fun _ => located_pure _).orElse <|
    ((located_array hv).bind fun _ => located_pure _).orElse <| (located_object hv).bind fun _ => located_pure _

end

theorem located_valueWithin : ∀ n, Located source (valueWithin n)
  | 0 => located_fail
  | n + 1 => .padded ((located_spanless (located_valueWithin n)).spanned.bind fun _ =>
      located_pure _)

/-- **The grammar** leaves a failure noted that shows a stretch of the source. -/
theorem located_documentWithin (n : Nat) : Located source (documentWithin n) :=
  .labelled _ ((located_valueWithin n).bind fun node => located_endOfInput.bind fun _ => located_pure node)

end JsonSelect.Reading
