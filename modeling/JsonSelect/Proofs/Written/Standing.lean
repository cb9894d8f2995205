import JsonSelect.Proofs.Written.Parts

/-! # Tokens within forms

`f.Stands l before after` says that the literal `l` stands in the form `f` as a token, with the text `before`
in front of it and `after` behind it: as a value, or as a key if it is a string literal.

* `Stands.chars`: the text of the form is that of the literal between the two others.
* `Stands.replace`: another literal can stand in its place, and the form stays as deep as it is.
* `Stands.begins`: what stands in front of a value is the start of a value itself.
* `Stands.startsOutside`: what stands behind a value does not continue a number. -/

namespace JsonSelect.Reading

open Rule Written

/-- The next character is one that a value can start with. -/
def Cursor.Begins (k : Cursor) : Prop := ∃ c, k.ahead.head? = some c ∧ startsValue c = true

theorem Cursor.Begins.settled {k : Cursor} (h : k.Begins) : Settled k := by
  obtain ⟨c, hc, hs⟩ := h
  intro d hd
  rw [hc] at hd
  cases hd
  exact not_isBlank_of_startsValue hs

theorem Cursor.Begins.head_ne {k : Cursor} (h : k.Begins) {c : Char} (hc : startsValue c = false) :
    k.ahead.head? ≠ some c := by
  obtain ⟨d, hd, hs⟩ := h
  rw [hd]
  rintro e
  cases e
  rw [hs] at hc
  cases hc

end JsonSelect.Reading

namespace JsonSelect.Written

open Text Reading Rule

namespace Entries

variable {β α : Type} (e : Entries β α)

/-- The text of entries in front of another one. -/
def front (bs : List β) : List Char := bs.flatMap fun b => e.text b ++ [',']

@[simp] theorem front_nil : e.front [] = [] := rfl

theorem front_cons (b : β) (bs : List β) : e.front (b :: bs) = e.text b ++ (e.further bs ++ [',']) := by
  induction bs generalizing b with
  | nil => simp [front]
  | cons b' bs ih =>
    have h : e.front (b :: b' :: bs) = e.text b ++ ',' :: e.front (b' :: bs) := by simp [front]
    rw [h, ih]
    simp [further]

theorem texts_append (bs : List β) (b : β) (bs' : List β) :
    e.texts (bs ++ b :: bs') = e.front bs ++ (e.text b ++ e.further bs') := by
  induction bs with
  | nil => exact e.texts_cons b bs'
  | cons b₀ bs ih =>
    rw [List.cons_append, texts_cons, further_of_ne_nil e (by simp), ih]
    simp [front]

end Entries

/-- A string literal can be put in the place of a literal only if that is one too: it may be a key. -/
def Literal.Replaces (l' l : Literal) : Prop := ∀ raw, l = .string raw → ∃ raw', l' = .string raw'

namespace Form

/-- The literal `l` stands in a form as a token, between two texts. -/
inductive Stands (l : Literal) : Form → List Char → List Char → Prop
  | here : Stands l (.literal l) [] []
  | item {gap : List Char} {earlier later : List (Pad × Form)} {pad : Pad} {f : Form}
      {before after : List Char} (h : Stands l f before after) :
      Stands l (.array gap (earlier ++ (pad, f) :: later))
        ('[' :: (gap ++ itemEntries.front earlier ++ pad.before ++ before))
        (after ++ (pad.after ++ itemEntries.further later ++ [']']))
  | value {gap : List Char} {earlier later : List (Label × Form)} {label : Label} {f : Form}
      {before after : List Char} (h : Stands l f before after) :
      Stands l (.object gap (earlier ++ (label, f) :: later))
        ('\x7b' :: (gap ++ memberEntries.front earlier ++ label.outer.before ++ (label.front ++ before)))
        (after ++ (label.outer.after ++ memberEntries.further later ++ ['\x7d']))
  | key {gap : List Char} {earlier later : List (Label × Form)} {label : Label} {f : Form}
      (hl : l = .string label.raw) :
      Stands l (.object gap (earlier ++ (label, f) :: later))
        ('\x7b' :: (gap ++ memberEntries.front earlier ++ label.outer.before))
        (label.colon.around [':'] ++ f.chars ++ (label.outer.after ++ memberEntries.further later ++ ['\x7d']))

namespace Stands

variable {l l' : Literal} {f : Form} {before after : List Char}

/-- **The text of a form** around a token. -/
theorem chars (h : f.Stands l before after) : f.chars = before ++ l.chars ++ after := by
  induction h with
  | here => simp [Form.chars]
  | item h ih =>
    rw [chars_array, Entries.texts_append]
    simp [itemEntries, Entries.text, ih]
  | value h ih =>
    rw [chars_object, Entries.texts_append]
    simp [memberEntries, Entries.text, ih]
  | key hl =>
    rw [chars_object, Entries.texts_append, hl]
    simp [memberEntries, Entries.text, Label.front, Literal.chars]

/-- **Another token** in the place of one. -/
theorem replace (h : f.Stands l before after) (hl : l'.Replaces l) : ∃ f' : Form, f'.Stands l' before after ∧
    (f.Grammatical → (literal l').Grammatical → f'.Grammatical) ∧ f'.depth = f.depth := by
  induction h with
  | here => exact ⟨literal l', .here, fun _ hg => hg, rfl⟩
  | @item gap earlier later pad f before after h ih =>
    obtain ⟨f', hf', hg', hd'⟩ := ih
    refine ⟨array gap (earlier ++ (pad, f') :: later), .item hf', fun hg hl => ?_, ?_⟩
    · simp only [grammatical_array, List.forall_mem_append, List.forall_mem_cons] at hg ⊢
      obtain ⟨hgap, hearlier, ⟨hpad, hf⟩, hlater⟩ := hg
      exact ⟨hgap, hearlier, ⟨hpad, hg' hf hl⟩, hlater⟩
    · simp only [depth, itemDepth_eq, List.map_append, List.map_cons, hd']
  | @value gap earlier later label f before after h ih =>
    obtain ⟨f', hf', hg', hd'⟩ := ih
    refine ⟨object gap (earlier ++ (label, f') :: later), .value hf', fun hg hl => ?_, ?_⟩
    · simp only [grammatical_object, List.forall_mem_append, List.forall_mem_cons] at hg ⊢
      obtain ⟨hgap, hearlier, ⟨ho, hc, hp, hf⟩, hlater⟩ := hg
      exact ⟨hgap, hearlier, ⟨ho, hc, hp, hg' hf hl⟩, hlater⟩
    · simp only [depth, memberDepth_eq, List.map_append, List.map_cons, hd']
  | @key gap earlier later label f hkey =>
    obtain ⟨raw, rfl⟩ := hl _ hkey
    refine ⟨object gap (earlier ++ (⟨label.outer, raw, label.colon⟩, f) :: later), .key rfl,
      fun hg hl => ?_, ?_⟩
    · simp only [grammatical_object, List.forall_mem_append, List.forall_mem_cons] at hg ⊢
      obtain ⟨hgap, hearlier, ⟨ho, -, hp, hf⟩, hlater⟩ := hg
      exact ⟨hgap, hearlier, ⟨ho, hl, hp, hf⟩, hlater⟩
    · simp only [depth, memberDepth_eq, List.map_append, List.map_cons]

/-- In front of a value a value begins. -/
theorem begins {k kt : Cursor} (h : f.Stands l before after) (hp : k.Passes before kt) (hkt : kt.Begins) :
    k.Begins := by
  cases h with
  | here => exact Cursor.passes_nil.mp hp ▸ hkt
  | item => exact ⟨'[', by rw [hp.ahead]; rfl, by decide⟩
  | value => exact ⟨'\x7b', by rw [hp.ahead]; rfl, by decide⟩
  | key => exact ⟨'\x7b', by rw [hp.ahead]; rfl, by decide⟩

/-- What stands behind a value does not continue a number, if what stands behind the form does not. -/
theorem startsOutside (h : f.Stands l before after) (hl : ∀ raw, l ≠ .string raw) (hg : f.Grammatical)
    {rest : List Char} (hrest : StartsOutside continuesNumber rest) :
    StartsOutside continuesNumber (after ++ rest) := by
  induction h generalizing rest with
  | here => exact hrest
  | @item gap earlier later pad f before after h ih =>
    simp only [grammatical_array, List.forall_mem_append, List.forall_mem_cons] at hg
    obtain ⟨-, -, ⟨⟨-, hpad⟩, hf⟩, -⟩ := hg
    rw [List.append_assoc, List.append_assoc, List.append_assoc]
    refine ih hf (startsOutside_blanks hpad ?_)
    cases later with
    | nil => exact startsOutside_cons.mpr (by decide)
    | cons b bs => exact startsOutside_cons.mpr (by decide)
  | @value gap earlier later label f before after h ih =>
    simp only [grammatical_object, List.forall_mem_append, List.forall_mem_cons] at hg
    obtain ⟨-, -, ⟨⟨-, hpad⟩, -, -, hf⟩, -⟩ := hg
    rw [List.append_assoc, List.append_assoc, List.append_assoc]
    refine ih hf (startsOutside_blanks hpad ?_)
    cases later with
    | nil => exact startsOutside_cons.mpr (by decide)
    | cons b bs => exact startsOutside_cons.mpr (by decide)
  | key hkey => exact absurd hkey (hl _)

end Stands

end Form

end JsonSelect.Written
