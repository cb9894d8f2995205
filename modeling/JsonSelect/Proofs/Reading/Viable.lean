import JsonSelect.Proofs.Reading.Quiet
import JsonSelect.Reading.Depth

/-! # Texts that can still become documents

A text is *viable* if it can be continued to a document, where numbers may be of any magnitude. What a rule
notes is *early* if its span starts behind a viable front of the source (`Early`), so that nothing in front of
the span is wrong yet. Which texts can come next at a cursor is said by a class of texts that the cursor
*admits*: with each of them the source stays viable (`Cursor.Admits`). A rule that is tried where the texts it
reads are admitted keeps the noted failure early; this module says so of the tokens. -/

namespace JsonSelect

open Reading Rule Written Text

/-- Every string literal of the form denotes a text. Its numbers may be of any magnitude. -/
def Written.Form.Legible (f : Form) : Prop :=
  f.Each (fun _ => True) (fun raw => ∃ cs, meaning raw = .ok cs) fun _ => True

namespace Reading

/-- The text can be continued to a document. -/
def Viable (cs : List Char) : Prop :=
  ∃ after pad f, Derives (cs ++ after) pad f ∧ f.depth ≤ maxDepth ∧ f.Legible

/-- The span starts behind a viable front of the source. -/
def Early (source : List Char) (_ : Nat) (span : Span) : Prop :=
  ∃ before k, (Cursor.start source).Passes before k ∧ Viable before ∧ span.start = k.offset

/-- Each text of the class `L` can come next at the cursor. -/
def Cursor.Admits (k : Cursor) (source : List Char) (L : List Char → Prop) : Prop :=
  ∃ before, (Cursor.start source).Passes before k ∧ ∀ cs, L cs → Viable (before ++ cs)

variable {source : List Char} {k k' : Cursor} {L M : List Char → Prop} {cs ds : List Char}

theorem Viable.of_append (h : Viable (cs ++ ds)) : Viable cs := by
  obtain ⟨after, pad, f, hd, hf⟩ := h
  rw [List.append_assoc] at hd
  exact ⟨ds ++ after, pad, f, hd, hf⟩

/-! ### What a cursor admits -/

namespace Cursor.Admits

/-- Behind a text the cursor admits what continues the text to one that was admitted in front of it. -/
theorem behind (h : k.Admits source L) (hp : k.Passes cs k')
    (hM : ∀ ds, M ds → ∃ es, L (cs ++ ds ++ es)) : k'.Admits source M := by
  obtain ⟨before, hb, hL⟩ := h
  refine ⟨before ++ cs, hb.trans hp, fun ds hds => ?_⟩
  obtain ⟨es, hes⟩ := hM ds hds
  have hv := hL _ hes
  rw [← List.append_assoc, ← List.append_assoc] at hv
  exact hv.of_append

/-- The cursor admits every text that begins one that it admits. -/
theorem begins (h : k.Admits source L) (hM : ∀ ds, M ds → ∃ es, L (ds ++ es)) : k.Admits source M :=
  h.behind (.refl k) hM

theorem mono (h : k.Admits source L) (hM : ∀ ds, M ds → L ds) : k.Admits source M :=
  h.begins fun ds hds => ⟨[], by rw [List.append_nil]; exact hM ds hds⟩

/-- What begins a text that was admitted stands in a viable front of the source. -/
theorem early (h : k.Admits source L) (hp : k.Passes cs k') (hL : L (cs ++ ds)) {place : Nat} {span : Span}
    (hs : span.start = k'.offset) : Early source place span := by
  obtain ⟨before, hb, hv⟩ := h
  have hv := hv _ hL
  rw [← List.append_assoc] at hv
  exact ⟨before ++ cs, k', hb.trans hp, hv.of_append, hs⟩

theorem early_cell (h : k.Admits source L) (hL : L ds) (place : Nat) : Early source place k.cell :=
  h.early (.refl k) hL rfl

end Cursor.Admits

/-! ### Numbers -/

/-- The text of a fraction. -/
def FractionText (cs : List Char) : Prop := ∃ ds, Digits ds ∧ '.' :: ds = cs

/-- The text of an exponent. -/
def ExponentText (cs : List Char) : Prop := ∃ e : ExponentLiteral, GrammaticalExponent e ∧ e.chars = cs

/-- The text of a number literal. -/
def NumberText (cs : List Char) : Prop := ∃ l : NumberLiteral, GrammaticalNumber l ∧ l.chars = cs

theorem digits_zero : Digits ['0'] := ⟨List.cons_ne_nil _ _, List.forall_mem_singleton.mpr rfl⟩

/-- The parts of a number literal, one behind the other. -/
theorem numberText_parts (negative : Bool) {w : List Char} {fr : Option (List Char)}
    {ex : Option ExponentLiteral} (hw : w = ['0'] ∨ Digits w ∧ w.head? ≠ some '0')
    (hf : ∀ ds, fr = some ds → Digits ds) (he : ∀ e, ex = some e → GrammaticalExponent e) :
    NumberText ((if negative then ['-'] else []) ++ w ++ fr.elim [] ('.' :: ·) ++
      ex.elim [] ExponentLiteral.chars) :=
  ⟨⟨negative, w, fr, ex⟩, ⟨hw, hf, he⟩, rfl⟩

theorem digits_of_none : ∀ ds : List Char, none = some ds → Digits ds := fun ds h => by cases h

theorem exponent_of_none : ∀ e : ExponentLiteral, none = some e → GrammaticalExponent e := fun e h => by cases h

theorem numberText_zero : NumberText ['0'] :=
  numberText_parts false (.inl rfl) digits_of_none exponent_of_none

theorem keeps_digits_of_admits (h : k.Admits source Digits) : digits.Keeps (Noted (Early source)) k := by
  refine turns_bind (keeps_one (absorbs_noted _) (h.early_cell digits_zero _)) fun c k₁ hc => ?_
  refine turns_bind keeps_run fun cs k₂ hcs => ?_
  obtain ⟨hdigit, h₁⟩ := reads_one.mp hc
  obtain ⟨h₂, hdigits, -⟩ := reads_run.mp hcs
  have hall : Digits ([c] ++ cs ++ []) := by
    rw [List.append_nil]
    exact ⟨List.cons_ne_nil _ _, List.forall_mem_cons.mpr ⟨hdigit, hdigits⟩⟩
  have hbehind : Early source k₂.offset k₂.cell := h.early (h₁.trans h₂) hall rfl
  exact turns_bind (keeps_noteMissing (absorbs_noted _) hbehind) fun _ _ _ => keeps_pure

theorem keeps_fraction_of_admits (h : k.Admits source FractionText) :
    fraction.Keeps (Noted (Early source)) k := by
  have hpoint := h.early_cell ⟨['0'], digits_zero, rfl⟩ k.offset
  refine turns_bind (keeps_symbol (absorbs_noted _) hpoint) fun _ k₁ h₁ => keeps_digits_of_admits ?_
  exact h.behind (reads_symbol.mp h₁) fun ds hds => ⟨[], ds, hds, by simp⟩

/-- The parts of an exponent, one behind the other. -/
theorem exponentText_parts {letter : Char} {s : Option Char} (hletter : letter = 'e' ∨ letter = 'E')
    (hs : ∀ c, s = some c → c = '+' ∨ c = '-') (hd : Digits ds) : ExponentText (letter :: (s.toList ++ ds)) :=
  ⟨⟨letter, s, ds⟩, ⟨hletter, hs, hd⟩, rfl⟩

theorem sign_of_none : ∀ c : Char, none = some c → c = '+' ∨ c = '-' := fun c h => by cases h

theorem keeps_exponent_of_admits (h : k.Admits source ExponentText) :
    exponent.Keeps (Noted (Early source)) k := by
  have hstart := h.early_cell (exponentText_parts (.inl rfl) sign_of_none digits_zero) k.offset
  refine keeps_labelled (absorbs_noted _) ?_
  refine turns_bind (keeps_exponentLetter hstart) fun letter k₁ hl => ?_
  obtain ⟨hletter, h₁⟩ := reads_exponentLetter.mp hl
  -- what is missed in the place of a sign is shown in front of it, whatever place is noted
  have hsign : sign.Keeps (Noted (Early source)) k₁ := keeps_sign (absorbs_noted _) fun place =>
    h.early h₁ (exponentText_parts hletter sign_of_none digits_zero) rfl
  refine turns_bind (turns_optional hsign) fun s k₂ hs => ?_
  obtain ⟨hs, h₂⟩ : (∀ c, s = some c → c = '+' ∨ c = '-') ∧ k₁.Passes s.toList k₂ := by
    rcases reads_optional.mp hs with ⟨c, rfl, hc⟩ | ⟨rfl, rfl, -⟩
    · obtain ⟨hc, hp⟩ := reads_sign.mp hc
      refine ⟨fun d hd => ?_, hp⟩
      cases hd
      exact hc
    · exact ⟨sign_of_none, .refl _⟩
  refine turns_bind (keeps_digits_of_admits ?_) fun _ _ _ => keeps_pure
  refine h.behind (h₁.trans h₂) fun ds hds => ⟨[], ?_⟩
  simpa using exponentText_parts hletter hs hds

/-- Each part of a literal is tried where it can come next, whatever was read in front of it. -/
theorem keeps_numberLiteral_of_admits (h : k.Admits source NumberText) :
    numberLiteral.Keeps (Noted (Early source)) k := by
  refine turns_bind (turns_optional (keeps_symbol (absorbs_noted _) (h.early_cell numberText_zero _)))
    fun minus k₁ hm => ?_
  have h₁ := passes_of_reads_minus hm
  have hzero := numberText_parts minus.isSome (.inl rfl) digits_of_none exponent_of_none
  rw [List.append_assoc, List.append_assoc] at hzero
  refine turns_bind (keeps_whole (h.early h₁ hzero rfl)) fun w k₂ hw => ?_
  obtain ⟨hw, h₂⟩ := grammatical_of_reads_whole hw
  have h₂ := h₁.trans h₂
  have hfraction := h.behind (M := FractionText) h₂ fun fs hfs => by
    obtain ⟨ds, hds, rfl⟩ := hfs
    have hsome : ∀ ds', some ds = some ds' → Digits ds' := by
      rintro _ ⟨⟩
      exact hds
    exact ⟨[], numberText_parts minus.isSome hw hsome exponent_of_none⟩
  refine turns_bind (turns_optional (keeps_fraction_of_admits hfraction)) fun fr k₃ hf => ?_
  obtain ⟨hf, h₃⟩ := grammatical_of_reads_fraction hf
  have h₃ := h₂.trans h₃
  have hexponent := h.behind (M := ExponentText) h₃ fun es hes => by
    obtain ⟨e, he, rfl⟩ := hes
    have hsome : ∀ e', some e = some e' → GrammaticalExponent e' := by
      rintro _ ⟨⟩
      exact he
    refine ⟨[], ?_⟩
    rw [List.append_nil]
    exact numberText_parts minus.isSome hw hf hsome
  exact turns_bind (turns_optional (keeps_exponent_of_admits hexponent)) fun _ _ _ => keeps_pure

/-- A number that is rejected is rejected at its start. -/
theorem keeps_number_of_admits (h : k.Admits source NumberText) : number.Keeps (Noted (Early source)) k := by
  refine keeps_labelled (absorbs_noted _) ?_
  refine turns_bind (turns_spanned (keeps_numberLiteral_of_admits h)) fun ⟨span, l⟩ k₁ hs => ?_
  obtain ⟨rfl, -⟩ := reads_spanned.mp hs
  cases hn : l.number? with
  | some n => simpa only [hn] using keeps_pure
  | none =>
    have hreject : (reject ⟨k.offset, k₁.offset⟩ (.outOfRange (String.ofList l.chars)) : Rule Number).Keeps
        (Noted (Early source)) k₁ :=
      keeps_reject (absorbs_noted _) (h.early (.refl k) numberText_zero rfl)
    simpa only [hn] using hreject

/-! ### String literals and keywords -/

/-- The text of a string literal that denotes a text. -/
def StringText (cs : List Char) : Prop :=
  ∃ raw, Contents raw ∧ (∃ t, meaning raw = .ok t) ∧ enclosed raw = cs

theorem stringText_empty : StringText ['"', '"'] := ⟨[], ⟨[], .nil⟩, ⟨[], rfl⟩, rfl⟩

/-- Contents that denote no text are rejected at their start, and nothing stays noted in them. -/
theorem keeps_stringLiteral_of_admits (h : k.Admits source StringText) :
    stringLiteral.Keeps (Noted (Early source)) k := by
  refine keeps_labelled (absorbs_noted _) ?_
  refine turns_bind (keeps_symbol (absorbs_noted _) (h.early_cell stringText_empty _)) fun _ k₁ hopen => ?_
  have h₁ := reads_symbol.mp hopen
  refine turns_bind ?_ fun s k₂ hs => ?_
  · refine turns_bind (turns_spanned (turns_contents (noted_none _))) fun ⟨span, ps⟩ k₂ hs => ?_
    obtain ⟨rfl, -⟩ := reads_spanned.mp hs
    cases hd : decode ps with
    | ok cs => simpa only [hd] using keeps_pure
    | error e =>
      have hreject : (reject ⟨k₁.offset, k₂.offset⟩ (.undecodable e) : Rule String).Keeps
          (Noted (Early source)) k₂ := keeps_reject (absorbs_noted _) (h.early h₁ stringText_empty rfl)
      simpa only [hd] using hreject
  · obtain ⟨ps, cs, hc, hd, rfl⟩ := reads_decoded.mp hs
    obtain ⟨raw, hspells, h₂⟩ := spells_of_reads_contents hc
    have hclosed : StringText (['"'] ++ raw ++ ['"']) :=
      ⟨raw, ⟨ps, hspells⟩, ⟨cs, by rw [meaning_of_spells hspells, hd]⟩, rfl⟩
    have hbehind : Early source k₂.offset k₂.cell := h.early (h₁.trans h₂) hclosed rfl
    exact turns_bind (keeps_symbol (absorbs_noted _) hbehind) fun _ _ _ => keeps_pure

theorem keeps_keyword_of_admits {w : List Char} (h : k.Admits source (w = ·)) :
    (keyword w).Keeps (Noted (Early source)) k := by
  induction w generalizing k with
  | nil => exact keeps_pure
  | cons c w ih =>
    refine turns_bind (keeps_symbol (absorbs_noted _) (h.early_cell rfl _)) fun _ k₁ h₁ => ih ?_
    exact h.behind (reads_symbol.mp h₁) fun ds hds => ⟨[], by simp [hds]⟩

theorem keeps_constant_of_admits {w : String} {s : Scalar} (h : k.Admits source (w.toList = ·)) :
    (constant w s).Keeps (Noted (Early source)) k :=
  keeps_labelled (absorbs_noted _) <| turns_bind (keeps_keyword_of_admits h) fun _ _ _ => keeps_pure

end Reading

end JsonSelect
