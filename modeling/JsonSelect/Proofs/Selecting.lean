import JsonSelect.Proofs.Location
import JsonSelect.Proofs.Session
import JsonSelect.Proofs.Tree.Spans
import JsonSelect.Proofs.Written.Tokens

/-! # Selecting by number and by location

A unit can be selected by its number, and by the location of any character of its token. Both give the same
session (`select_at_agrees`): no token holds a line break (`Document.ne_newline_of_covers`), so each of its
characters has an offset, and the unit there is the only one. -/

namespace JsonSelect

open Reading Written

/-- A character of the unit's token stands at the location `l` of a text. -/
def TreeUnit.StandsAt (u : TreeUnit) (source : List Char) (l : Location) : Prop :=
  ∃ before c after, source = before ++ c :: after ∧ u.span.covers (byteLength before) ∧
    Location.behind before = l

/-! ### Characters of tokens -/

/-- The character at a byte of a middle part belongs to that part. -/
theorem mem_of_byteLength {before after left middle right : List Char} {c : Char}
    (h : before ++ c :: after = left ++ middle ++ right) (hl : byteLength left ≤ byteLength before)
    (hr : byteLength before < byteLength (left ++ middle)) : c ∈ middle := by
  rcases List.append_eq_append_iff.mp h with ⟨rest, he, ht⟩ | ⟨rest, rfl, -⟩
  · cases rest with
    | nil =>
      rw [he, List.append_nil] at hr
      exact absurd hr (Nat.lt_irrefl _)
    | cons d rest =>
      obtain ⟨rfl, -⟩ := List.cons.inj ht
      rcases List.append_eq_append_iff.mp he.symm with ⟨gap, rfl, hm⟩ | ⟨front, -, rfl⟩
      · -- nothing of `left` lies behind the character
        cases gap with
        | nil =>
          rw [List.nil_append] at hm
          simp [← hm]
        | cons e gap =>
          have := byteLength_pos (List.cons_ne_nil e gap)
          rw [byteLength_append] at hl
          omega
      · simp
  · rw [byteLength_append] at hr
    omega

namespace Document

variable {source : String} {pad : Pad} {f : Form} {u : TreeUnit} {before after : List Char} {c : Char}

/-- A character of a token is no line break. -/
theorem Derivation.ne_newline_of_covers (h : Derivation source pad f)
    (hu : u ∈ (f.node (byteLength pad.before)).tree.units) (hs : source.toList = before ++ c :: after)
    (hc : u.span.covers (byteLength before)) : c ≠ '\n' := by
  obtain ⟨left, token, right, he, ht, hspan⟩ := h.exists_stretch hu
  have hprint : Printable token := by
    refine Pad.forall_layout (P := fun s => s.region = .token → Printable s.chars) ?_ ?_
      (Form.printable_layout h.derives.grammatical h.accepted) _ ht rfl
    · intro h
      cases h
    · intro h
      cases h
  simp only [hspan, Span.covers, Bool.and_eq_true, decide_eq_true_eq] at hc
  have hmem := hprint c (mem_of_byteLength (hs.symm.trans he) hc.1 hc.2)
  rintro rfl
  exact absurd hmem (by decide)

/-- A unit covers bytes of the source only. -/
theorem Derivation.lt_of_covers (h : Derivation source pad f) {offset : Nat}
    (hu : u ∈ (f.node (byteLength pad.before)).tree.units) (hc : u.span.covers offset) :
    offset < byteLength source.toList := by
  obtain ⟨left, token, right, he, -, hspan⟩ := h.exists_stretch hu
  simp only [hspan, Span.covers, Bool.and_eq_true, decide_eq_true_eq] at hc
  rw [he, byteLength_append]
  omega

/-- **A unit stands at a location** when it covers the byte at the offset of the location. -/
theorem standsAt_iff {d : Document} (h : parse source = .ok d) (hu : u ∈ d.root.tree.units)
    {l : Location} : u.StandsAt source.toList l ↔
      ∃ offset, d.offsetOf? l = some offset ∧ u.span.covers offset := by
  obtain ⟨pad, f, hf, rfl⟩ := parse_eq_ok.mp h
  simp only [offsetOf?_eq_some, LiesAt, Nat.zero_add]
  constructor
  · rintro ⟨before, c, after, hs, hc, hl⟩
    refine ⟨_, ⟨before, c :: after, hs, rfl, hl, fun hk => ?_⟩, hc⟩
    exact hf.ne_newline_of_covers hu hs hc (hk.2 c rfl)
  · rintro ⟨_, ⟨before, after, hs, rfl, hl, -⟩, hc⟩
    cases after with
    | nil =>
      have := hf.lt_of_covers hu hc
      rw [hs, List.append_nil] at this
      exact absurd this (Nat.lt_irrefl _)
    | cons c after => exact ⟨before, c, after, hs, hc, hl⟩

end Document

namespace Session

variable {s : Session} {d : Document} {l : Location}

/-! ### Events that select -/

theorem select_eq (hs : s.loaded = .document d) {id : Nat} {u : TreeUnit}
    (h : d.root.tree.unit? id = some u) :
    s.apply (.select id) = .ok { s with selection := some u.select } := by
  rw [apply, unit, document_eq_ok.mpr hs]
  simp only [bind, Except.bind, h]
  rfl

theorem selectAt_eq (hs : s.loaded = .document d) : s.apply (.selectAt l) =
    (d.offsetOf? l).elim (.error (.outOfBounds l)) fun offset =>
      (d.root.tree.unitAt? offset).elim (.error (.nothingAt l)) fun u =>
        .ok { s with selection := some u.select } := by
  rw [apply, unitAt, document_eq_ok.mpr hs]
  simp only [bind, Except.bind]
  cases d.offsetOf? l with
  | none => rfl
  | some offset =>
    simp only [Option.elim_some]
    cases d.root.tree.unitAt? offset <;> rfl

/-- **Selecting by number and by location** agree. A location of a character of a unit's token selects that
unit; no other location selects anything, because it is no location of the source, or because no token stands
there. -/
theorem select_at_agrees {source : String} (h : Document.parse source = .ok d)
    (hs : s.loaded = .document d) :
    (∀ id u l, d.root.tree.unit? id = some u → u.StandsAt source.toList l →
      ∃ s', s.apply (.select id) = .ok s' ∧ s.apply (.selectAt l) = .ok s') ∧
    ∀ l,
      ((∃ s', s.apply (.selectAt l) = .ok s') ↔
        ∃ u ∈ d.root.tree.units, u.StandsAt source.toList l) ∧
      (s.apply (.selectAt l) = .error (.outOfBounds l) ↔ d.offsetOf? l = none) ∧
      (s.apply (.selectAt l) = .error (.nothingAt l) ↔ d.offsetOf? l ≠ none ∧
        ∀ u ∈ d.root.tree.units, ¬ u.StandsAt source.toList l) := by
  have hspread : d.root.tree.Spread := by
    obtain ⟨pad, f, -, rfl⟩ := Document.parse_eq_ok.mp h
    exact Document.spread_tree pad f
  have hunit : ∀ u l, u ∈ d.root.tree.units → u.StandsAt source.toList l →
      ∃ offset, d.offsetOf? l = some offset ∧ d.root.tree.unitAt? offset = some u := by
    intro u l hu hl
    obtain ⟨offset, ho, hc⟩ := (Document.standsAt_iff h hu).mp hl
    exact ⟨offset, ho, (Tree.unitAt?_eq_some hspread).mpr ⟨hu, hc⟩⟩
  refine ⟨fun id u l hid hl => ?_, fun l => ?_⟩
  · obtain ⟨offset, ho, hat⟩ := hunit u l (List.mem_of_getElem? hid) hl
    exact ⟨_, select_eq hs hid, by simp [selectAt_eq hs, ho, hat]⟩
  · rw [selectAt_eq hs]
    cases ho : d.offsetOf? l with
    | none =>
      have hno : ∀ u ∈ d.root.tree.units, ¬ u.StandsAt source.toList l := fun u hu hl => by
        obtain ⟨offset, ho', -⟩ := hunit u l hu hl
        cases ho.symm.trans ho'
      simpa using hno
    | some offset =>
      cases hat : d.root.tree.unitAt? offset with
      | none =>
        have hno : ∀ u ∈ d.root.tree.units, ¬ u.StandsAt source.toList l := fun u hu hl => by
          obtain ⟨offset', ho', hat'⟩ := hunit u l hu hl
          obtain rfl : offset = offset' := Option.some.inj (ho.symm.trans ho')
          cases hat.symm.trans hat'
        simpa [hat] using hno
      | some u =>
        obtain ⟨hu, hc⟩ := (Tree.unitAt?_eq_some hspread).mp hat
        have hl := (Document.standsAt_iff h hu).mpr ⟨offset, ho, hc⟩
        have hsome : ∃ u ∈ d.root.tree.units, u.StandsAt source.toList l := ⟨u, hu, hl⟩
        simpa [hat] using hsome

/-- The word behind a string of two bytes, on a line behind a carriage return. -/
theorem select_word_on_second_line : ∃ d, Document.parse "[\r\n\"é\", null]" = .ok d ∧
    ∃ s : Session, s.loaded = .document d ∧
      ∃ s', s.apply (.select 2) = .ok s' ∧ s.apply (.selectAt ⟨2, 7⟩) = .ok s' := by
  let f : Form := .array [] [(⟨['\r', '\n'], []⟩, .literal (.string ['é'])),
    (⟨[' '], []⟩, .literal .null)]
  have hc : Contents ['é'] := ⟨_, .plain (by decide) (by decide) .nil⟩
  have hg : f.Grammatical := by
    simp [f, Form.Grammatical, Form.Each, Form.EachItem, Blanks, Text.isBlank, hc]
  have ha : f.Accepted := by
    have hm : Text.meaning ['é'] = .ok ['é'] := Text.meaning_escaped ['é']
    simp [f, Form.Accepted, Form.Each, Form.EachItem, hm]
  have hp := Document.parse_chars hg ha (by decide)
  obtain ⟨hsame, -⟩ := select_at_agrees hp (s := { start "data" .python with loaded := .document _ }) rfl
  refine ⟨_, hp, _, rfl, hsame 2 _ ⟨2, 7⟩ rfl ?_⟩
  exact ⟨"[\r\n\"é\", n".toList, 'u', "ll]".toList, by decide, by decide, by decide⟩

end Session

end JsonSelect
