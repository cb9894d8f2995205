import JsonSelect.Proofs.Reading.Values

/-! # Forms within forms

The text of a form holds the texts of its parts. `Form.Holds f before g` says that the form `g` is written
in the form `f` behind the text `before`.

* `Holds.grammatical`, `Holds.accepted`, `Holds.depth_le`: a part is no worse than the whole.
* `holds_item`, `holds_member`: each entry of a container is a part, and its node is that of the part where
  it stands (`exists_of_mem_contents`).
* `last_chars`: a form ends, as it starts, with a character that is no blank. -/

namespace JsonSelect.Written

open Text Reading

namespace Entries

variable {β α : Type} (e : Entries β α)

theorem further_of_ne_nil {bs : List β} (h : bs ≠ []) : e.further bs = ',' :: e.texts bs := by
  cases bs with
  | nil => exact absurd rfl h
  | cons b bs =>
    have htext : e.texts (b :: bs) = e.lead b ++ (e.body b ++ e.further bs) := by
      rw [texts_cons, text, List.append_assoc]
    rw [further_cons, htext]

/-- **Each content** is that of an entry whose body stands where the content does. -/
theorem exists_of_mem_contents {start : Nat} {bs : List β} {a : α} (h : a ∈ e.contents start bs) :
    ∃ b ∈ bs, ∃ before after, e.texts bs = before ++ e.body b ++ after ∧
      a = e.content (start + byteLength before) b := by
  induction bs generalizing start with
  | nil => cases h
  | cons b bs ih =>
    rcases List.mem_cons.mp h with rfl | h
    · refine ⟨b, List.mem_cons_self, e.lead b, e.further bs, ?_, rfl⟩
      rw [texts_cons, text]
    · have hne : bs ≠ [] := by
        rintro rfl
        cases h
      obtain ⟨b', hb, before, after, htexts, rfl⟩ := ih h
      refine ⟨b', List.mem_cons_of_mem _ hb, e.text b ++ ',' :: before, after, ?_, ?_⟩
      · rw [texts_cons, further_of_ne_nil e hne, htexts]
        simp
      · have hcomma : Char.utf8Size ',' = 1 := rfl
        congr 1
        rw [byteLength_append, byteLength_cons, hcomma]
        omega

end Entries

namespace Form

/-- The form `g` is written in the form `f` behind the text `before`. -/
structure Holds (f : Form) (before : List Char) (g : Form) : Prop where
  chars : ∃ after, f.chars = before ++ g.chars ++ after
  grammatical : f.Grammatical → g.Grammatical
  accepted : f.Accepted → g.Accepted
  depth_le : g.depth ≤ f.depth

theorem Holds.refl (f : Form) : f.Holds [] f :=
  ⟨⟨[], by simp⟩, id, id, Nat.le_refl _⟩

theorem Holds.trans {f g h : Form} {before between : List Char} (hg : f.Holds before g)
    (hh : g.Holds between h) : f.Holds (before ++ between) h := by
  obtain ⟨after, hf⟩ := hg.chars
  obtain ⟨after', hg'⟩ := hh.chars
  refine ⟨⟨after' ++ after, ?_⟩, fun h => hh.grammatical (hg.grammatical h),
    fun h => hh.accepted (hg.accepted h), Nat.le_trans hh.depth_le hg.depth_le⟩
  rw [hf, hg']
  simp only [List.append_assoc]

/-- An item of an array, behind what stands in front of it between the brackets. -/
theorem holds_item {gap before after : List Char} {items : List (Pad × Form)} {i : Pad × Form}
    (hi : i ∈ items) (h : itemEntries.texts items = before ++ itemEntries.body i ++ after) :
    (array gap items).Holds ('[' :: (gap ++ before)) i.2 := by
  refine ⟨⟨i.1.after ++ after ++ [']'], ?_⟩, fun hg => ?_, fun ha => ?_, ?_⟩
  · rw [chars_array, h]
    simp [itemEntries]
  · exact ((grammatical_array.mp hg).2 i hi).2
  · exact accepted_array.mp ha i hi
  · have := depth_array.mp (Nat.le_refl (array gap items).depth) i hi
    exact Nat.le_succ_of_le this

/-- The value of a member of an object, behind what stands in front of it. -/
theorem holds_member {gap before after : List Char} {members : List (Label × Form)} {m : Label × Form}
    (hm : m ∈ members) (h : memberEntries.texts members = before ++ memberEntries.body m ++ after) :
    (object gap members).Holds ('\x7b' :: (gap ++ before ++ m.1.front)) m.2 := by
  refine ⟨⟨m.1.outer.after ++ after ++ ['\x7d'], ?_⟩, fun hg => ?_, fun ha => ?_, ?_⟩
  · rw [chars_object, h]
    simp [memberEntries]
  · exact ((grammatical_object.mp hg).2 m hm).2.2.2
  · exact (accepted_object.mp ha m hm).2
  · have := depth_object.mp (Nat.le_refl (object gap members).depth) m hm
    exact Nat.le_succ_of_le this

/-- The key of a member of an object is written there as a string literal. -/
theorem holds_key {gap before after : List Char} {members : List (Label × Form)} {m : Label × Form}
    (hm : m ∈ members) (h : memberEntries.texts members = before ++ memberEntries.body m ++ after) :
    (object gap members).Holds ('\x7b' :: (gap ++ before)) (.literal (.string m.1.raw)) := by
  refine ⟨⟨m.1.colon.around [':'] ++ m.2.chars ++ m.1.outer.after ++ after ++ ['\x7d'], ?_⟩,
    fun hg => ?_, fun ha => ?_, ?_⟩
  · rw [chars_object, h]
    simp [memberEntries, Label.front, chars, Literal.chars]
  · exact ((grammatical_object.mp hg).2 m hm).2.1
  · exact (accepted_object.mp ha m hm).1
  · exact Nat.zero_le _

/-! ### The last character -/

/-- No character of a number literal is a blank. -/
theorem not_isBlank_of_mem_number {l : NumberLiteral} (h : GrammaticalNumber l) :
    ∀ c ∈ l.chars, isBlank c = false := by
  have hall : "0123456789+-.eE".toList.any isBlank = false := by decide
  exact forall_number (eq_false_of_any hall) h

theorem last_chars {f : Form} (h : f.Grammatical) {c : Char} (hc : f.chars.getLast? = some c) :
    isBlank c = false := by
  have hbracket : ∀ {l r : Char} {cs : List Char}, isBlank r = false →
      (l :: (cs ++ [r])).getLast? = some c → isBlank c = false := fun {l r cs} hr hl => by
    rw [← List.cons_append, List.getLast?_concat] at hl
    rwa [← Option.some.inj hl]
  cases f with
  | literal l =>
    cases l with
    | null => obtain rfl := Option.some.inj hc; decide
    | boolean b => cases b <;> (obtain rfl := Option.some.inj hc; decide)
    | number l => exact not_isBlank_of_mem_number h c (List.mem_of_getLast? hc)
    | string raw => exact hbracket (by decide) hc
  | array gap items => exact hbracket (by decide) hc
  | object gap members => exact hbracket (by decide) hc

end Form

end JsonSelect.Written
