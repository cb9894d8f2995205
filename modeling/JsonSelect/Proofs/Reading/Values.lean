import JsonSelect.Proofs.Reading.Entries

/-! # Values that are read

The rule for values of at most `n` levels reads exactly the forms of the class `Readable n`, with blanks
around them, up to a character that can follow a value (`reads_valueWithin`). Readable forms are
grammatical and accepted, and such forms are readable unless they nest too deep (`readable_of_depth`). -/

namespace JsonSelect.Reading

open Rule Written Text

variable {k k' : Cursor}

/-! ### Readable forms -/

/-- The forms that the rule for values of at most `n` levels reads. -/
def Readable : Nat → Form → Prop
  | 0, _ => False
  | _ + 1, .literal l => (Form.literal l).Grammatical ∧ (Form.literal l).Accepted
  | n + 1, .array gap items =>
    Blanks gap ∧ ∀ i ∈ items, (Blanks i.1.before ∧ Blanks i.1.after) ∧ Readable n i.2
  | n + 1, .object gap members =>
    Blanks gap ∧ ∀ m ∈ members, (Blanks m.1.outer.before ∧ Blanks m.1.outer.after) ∧
      (Contents m.1.raw ∧ ∃ cs, meaning m.1.raw = .ok cs) ∧
        (Blanks m.1.colon.before ∧ Blanks m.1.colon.after) ∧ Readable n m.2

theorem grammatical_of_readable {n : Nat} {f : Form} (h : Readable n f) : f.Grammatical := by
  induction n generalizing f with
  | zero => cases h
  | succ n ih =>
    cases f with
    | literal l => exact h.1
    | array gap items =>
      refine Form.grammatical_array.mpr ⟨h.1, fun i hi => ?_⟩
      obtain ⟨hp, hf⟩ := h.2 i hi
      exact ⟨hp, ih hf⟩
    | object gap members =>
      refine Form.grammatical_object.mpr ⟨h.1, fun m hm => ?_⟩
      obtain ⟨ho, ⟨hc, -⟩, hp, hf⟩ := h.2 m hm
      exact ⟨ho, hc, hp, ih hf⟩

theorem accepted_of_readable {n : Nat} {f : Form} (h : Readable n f) : f.Accepted := by
  induction n generalizing f with
  | zero => cases h
  | succ n ih =>
    cases f with
    | literal l => exact h.2
    | array gap items =>
      refine Form.accepted_array.mpr fun i hi => ?_
      exact ih (h.2 i hi).2
    | object gap members =>
      refine Form.accepted_object.mpr fun m hm => ?_
      obtain ⟨-, ⟨-, ha⟩, -, hf⟩ := h.2 m hm
      exact ⟨ha, ih hf⟩

/-- A form that nests less than `n` deep has at most `n` levels. -/
theorem readable_of_depth {n : Nat} {f : Form} (hg : f.Grammatical) (ha : f.Accepted)
    (hd : f.depth ≤ n) : Readable (n + 1) f := by
  induction n generalizing f with
  | zero =>
    cases f with
    | literal l => exact ⟨hg, ha⟩
    | array gap items => cases hd
    | object gap members => cases hd
  | succ n ih =>
    cases f with
    | literal l => exact ⟨hg, ha⟩
    | array gap items =>
      obtain ⟨hgap, hg⟩ := Form.grammatical_array.mp hg
      refine ⟨hgap, fun i hi => ⟨(hg i hi).1, ?_⟩⟩
      exact ih (hg i hi).2 (Form.accepted_array.mp ha i hi) (Form.depth_array.mp hd i hi)
    | object gap members =>
      obtain ⟨hgap, hg⟩ := Form.grammatical_object.mp hg
      refine ⟨hgap, fun m hm => ?_⟩
      obtain ⟨ho, hc, hp, hf⟩ := hg m hm
      obtain ⟨hm', haf⟩ := Form.accepted_object.mp ha m hm
      exact ⟨ho, ⟨hc, hm'⟩, hp, ih hf haf (Form.depth_object.mp hd m hm)⟩

/-! ### How values start -/

theorem not_isBlank_of_isDigit {c : Char} (h : c.isDigit = true) : isBlank c = false := by
  have hd : "0123456789".toList.any isBlank = false := by decide
  exact eq_false_of_any hd c (mem_of_isDigit h)

theorem not_isBlank_of_continuesNumber {c : Char} (h : continuesNumber c = true) :
    isBlank c = false := by
  simp only [continuesNumber, Bool.or_eq_true, decide_eq_true_eq] at h
  rcases h with ((h | rfl) | rfl) | rfl
  · exact not_isBlank_of_isDigit h
  all_goals decide

theorem not_isBlank_of_startsValue {c : Char} (h : startsValue c = true) : isBlank c = false := by
  have hs : "ntf\"[\x7b".toList.any isBlank = false := by decide
  simp only [startsValue, Bool.or_eq_true, decide_eq_true_eq, List.contains_iff_mem] at h
  rcases h with (rfl | h) | h
  · decide
  · exact not_isBlank_of_isDigit h
  · exact eq_false_of_any hs c h

theorem head_chars {f : Form} (h : f.Grammatical) :
    ∃ c cs, f.chars = c :: cs ∧ startsValue c = true := by
  cases f with
  | literal l =>
    cases l with
    | null => exact ⟨'n', _, rfl, by decide⟩
    | boolean b => cases b <;> exact ⟨_, _, rfl, by decide⟩
    | number l =>
      obtain ⟨c, cs, he, hc⟩ := head_numberLiteral h
      refine ⟨c, cs, he, ?_⟩
      simp only [startsValue, Bool.or_eq_true, decide_eq_true_eq]
      exact .inl hc
    | string raw => exact ⟨'"', _, rfl, by decide⟩
  | array gap items => exact ⟨'[', _, rfl, by decide⟩
  | object gap members => exact ⟨'\x7b', _, rfl, by decide⟩

theorem settled_of_passes_chars {f : Form} {cs : List Char} (hf : f.Grammatical)
    (h : k.Passes (f.chars ++ cs) k') : Settled k := by
  obtain ⟨c, ds, he, hc⟩ := head_chars hf
  rw [Settled, h.ahead, he]
  exact startsOutside_cons.mpr (not_isBlank_of_startsValue hc)

/-! ### Items and members -/

/-- The rule `value` reads the forms of the class `good` with blanks around them. -/
structure ReadsForms (value : Rule Node) (good : Form → Prop) : Prop where
  sound : ∀ {k n k'}, value.Reads k n k' → ∃ (pad : Pad) (f : Form),
    (Blanks pad.before ∧ Blanks pad.after) ∧ good f ∧ k.Passes (pad.around f.chars) k' ∧ Settled k' ∧
      n = f.node (k.offset + byteLength pad.before)
  complete : ∀ {k} {pad : Pad} {f : Form} {k'}, (Blanks pad.before ∧ Blanks pad.after) → good f →
    k.Passes (pad.around f.chars) k' → Stops k'.ahead →
      value.Reads k (f.node (k.offset + byteLength pad.before)) k'
  grammatical : ∀ {f}, good f → f.Grammatical
  misses : ∀ {k}, Stops k.ahead → value.Misses k

namespace ReadsForms

variable {value : Rule Node} {good : Form → Prop}

/-- A value that is read where no blank stands has none in front. -/
theorem sound_settled (h : ReadsForms value good) {n : Node} (hk : Settled k)
    (hr : value.Reads k n k') : ∃ f after, Blanks after ∧ good f ∧ k.Passes (f.chars ++ after) k' ∧
      Settled k' ∧ n = f.node k.offset := by
  obtain ⟨⟨before, after⟩, f, ⟨hb, ha⟩, hf, hp, hk', rfl⟩ := h.sound hr
  rw [Pad.around, List.append_assoc] at hp
  obtain ⟨k₁, h₁, h₂⟩ := Cursor.passes_append.mp hp
  obtain ⟨rfl, rfl⟩ := hk.passes h₁ hb
  exact ⟨f, after, ha, hf, h₂, hk', rfl⟩

theorem complete_settled (h : ReadsForms value good) {f : Form} {after : List Char} (hf : good f)
    (ha : Blanks after) (hp : k.Passes (f.chars ++ after) k') (hk' : Stops k'.ahead) :
    value.Reads k (f.node k.offset) k' :=
  have hb : Blanks (Pad.mk [] after).before ∧ Blanks (Pad.mk [] after).after := ⟨blanks_nil, ha⟩
  h.complete hb hf hp hk'

/-- The items of an array whose values are good forms. -/
theorem items (h : ReadsForms value good) : ReadsEntries value itemEntries
    fun i => (Blanks i.1.before ∧ Blanks i.1.after) ∧ good i.2 where
  passes hr := by
    obtain ⟨pad, f, -, -, hp, -⟩ := h.sound hr
    exact ⟨_, hp⟩
  sound {k a k' lead} hk hl hr := by
    obtain ⟨f, after, ha, hf, hp, hk', rfl⟩ := h.sound_settled hk hr
    exact ⟨(⟨lead, after⟩, f), ⟨⟨hl, ha⟩, hf⟩, rfl, hp, hk', rfl⟩
  complete hg hp hk' := h.complete_settled hg.2 hg.1.2 hp hk'
  lead hg := hg.1.1
  settled hg hp := settled_of_passes_chars (h.grammatical hg.2) hp
  misses hk := h.misses hk

theorem reads_member {key : Key} {n : Node} : (member value).Reads k (key, n) k' ↔ ∃ k₁ k₂,
    key.span = ⟨k.offset, k₁.offset⟩ ∧ stringLiteral.Reads k key.name k₁ ∧
      (padded (symbol ':')).Reads k₁ () k₂ ∧ value.Reads k₂ n k' := by
  simp only [member, reads_labelled, reads_bind]
  constructor
  · rintro ⟨⟨span, name⟩, k₁, h₁, u, k₂, h₂, n', k₃, h₃, h₄⟩
    obtain ⟨he, rfl⟩ := reads_pure.mp h₄
    cases he
    obtain ⟨hs, hn⟩ := reads_spanned.mp h₁
    exact ⟨k₁, k₂, hs, hn, h₂, h₃⟩
  · rintro ⟨k₁, k₂, hs, h₁, h₂, h₃⟩
    refine ⟨(key.span, key.name), k₁, reads_spanned.mpr ⟨hs, h₁⟩, (), k₂, h₂, n, k', h₃, ?_⟩
    exact reads_pure.mpr ⟨rfl, rfl⟩

/-- The members of an object whose values are good forms. -/
theorem members (h : ReadsForms value good) : ReadsEntries (member value) memberEntries
    fun m => (Blanks m.1.outer.before ∧ Blanks m.1.outer.after) ∧
      (Contents m.1.raw ∧ ∃ cs, meaning m.1.raw = .ok cs) ∧
        (Blanks m.1.colon.before ∧ Blanks m.1.colon.after) ∧ good m.2 where
  passes {k a k'} hr := by
    obtain ⟨k₁, k₂, -, h₁, h₂, h₃⟩ := reads_member.mp hr
    obtain ⟨raw, -, -, -, hp₁⟩ := reads_stringLiteral.mp h₁
    obtain ⟨cs, ds, k₃, k₄, ⟨hp₂, -, -⟩, hp₃, hp₄, -⟩ := reads_padded.mp h₂
    obtain ⟨pad, f, -, -, hp₅, -⟩ := h.sound h₃
    exact ⟨_, hp₁.trans (hp₂.trans ((reads_symbol.mp hp₃).trans (hp₄.trans hp₅)))⟩
  sound {k a k' lead} hk hl hr := by
    obtain ⟨key, n⟩ := a
    obtain ⟨k₁, k₂, hs, h₁, h₂, h₃⟩ := reads_member.mp hr
    obtain ⟨raw, hc, hm, hn, hp₁⟩ := reads_stringLiteral.mp h₁
    obtain ⟨before, after, k₃, k₄, ⟨hp₂, hb, -⟩, hp₃, hp₄, hd, hk₂⟩ := reads_padded.mp h₂
    obtain ⟨f, after', ha, hf, hp₅, hk', rfl⟩ := h.sound_settled hk₂ h₃
    have hp := hp₁.trans ((hp₂.trans (reads_symbol.mp hp₃)).trans hp₄)
    refine ⟨(⟨⟨lead, after'⟩, raw, ⟨before, after⟩⟩, f), ⟨⟨hl, ha⟩, ⟨hc, hm⟩, ⟨hb, hd⟩, hf⟩, rfl, ?_, hk',
      ?_⟩
    · have := hp.trans hp₅
      rwa [← List.append_assoc] at this
    · obtain ⟨name, span⟩ := key
      simp only at hs hn
      rw [hs, hn, hp₁.offset, hp.offset]
      rfl
  complete {k m k'} hg hp hk' := by
    obtain ⟨⟨-, ha⟩, ⟨hc, hm⟩, ⟨hb, hd⟩, hf⟩ := hg
    obtain ⟨⟨⟨lead, after'⟩, raw, ⟨before, after⟩⟩, f⟩ := m
    have hp : k.Passes ((enclosed raw ++ (before ++ ([':'] ++ after))) ++ (f.chars ++ after')) k' := by
      simpa [memberEntries, Label.front, Pad.around] using hp
    obtain ⟨k₂, hp', h₅⟩ := Cursor.passes_append.mp hp
    obtain ⟨k₁, h₁, h'⟩ := Cursor.passes_append.mp hp'
    obtain ⟨k₃, h₂, h''⟩ := Cursor.passes_append.mp h'
    obtain ⟨k₄, h₃, h₄⟩ := Cursor.passes_append.mp h''
    have hk₃ : Settled k₃ := by
      rw [Settled, h₃.ahead]
      exact startsOutside_cons.mpr (by decide)
    have hk₂ := settled_of_passes_chars (h.grammatical hf) h₅
    refine reads_member.mpr ⟨k₁, k₂, ?_, reads_stringLiteral.mpr ⟨raw, hc, hm, rfl, h₁⟩,
      reads_padded.mpr ⟨before, after, k₃, k₄, ⟨h₂, hb, hk₃⟩, reads_symbol.mpr h₃, h₄, hd, hk₂⟩, ?_⟩
    · rw [h₁.offset]
    · have := h.complete_settled hf ha h₅ hk'
      rw [hp'.offset] at this
      simpa [Label.front, Pad.around] using this
  lead hg := hg.1.1
  settled {k m k'} hg hp := by
    rw [Settled, hp.ahead]
    exact startsOutside_cons.mpr (by decide)
  misses {k} hk := by
    refine misses_labelled.mpr (misses_bind.mpr (.inl (misses_spanned.mpr (misses_stringLiteral ?_))))
    intro e
    exact absurd (hk _ e) (by decide)

end ReadsForms

/-! ### Values -/

variable {value : Rule Node} {good : Form → Prop}

theorem reads_array (h : ReadsForms value good) {items : List Node} :
    (array value).Reads k items k' ↔ ∃ gap is, Blanks gap ∧
      (∀ i ∈ is, (Blanks i.1.before ∧ Blanks i.1.after) ∧ good i.2) ∧
        k.Passes (Form.array gap is).chars k' ∧
          items = itemEntries.contents (k.offset + 1 + byteLength gap) is := by
  simp only [array, reads_labelled, Form.chars_array]
  exact reads_bracketed_entries h.items (by decide) (g := id) (by simp)

theorem reads_members {ms : List (Key × Node)} : (Reading.members value).Reads k ms k' ↔
    ∃ all, (separated (member value) comma).Reads k all k' ∧ ms = Members.collapse all := by
  simp only [Reading.members, reads_bind, reads_noteCollapse, reads_pure]
  constructor
  · rintro ⟨all, k₁, h, _, _, rfl, rfl, rfl⟩
    exact ⟨all, h, rfl⟩
  · rintro ⟨all, h, rfl⟩
    exact ⟨all, k', h, (), k', rfl, rfl, rfl⟩

theorem reads_object (h : ReadsForms value good) {ms : List (Key × Node)} :
    (object value).Reads k ms k' ↔ ∃ gap all, Blanks gap ∧
      (∀ m ∈ all, (Blanks m.1.outer.before ∧ Blanks m.1.outer.after) ∧
        (Contents m.1.raw ∧ ∃ cs, meaning m.1.raw = .ok cs) ∧
          (Blanks m.1.colon.before ∧ Blanks m.1.colon.after) ∧ good m.2) ∧
        k.Passes (Form.object gap all).chars k' ∧
          ms = Members.collapse (memberEntries.contents (k.offset + 1 + byteLength gap) all) := by
  simp only [object, reads_labelled, Form.chars_object]
  exact reads_bracketed_entries h.members (by decide) reads_members

theorem reads_valueWithin_succ {n : Nat} {nd : Node} : (valueWithin (n + 1)).Reads k nd k' ↔
    ∃ cs ds k₁ k₂ g, (k.Passes cs k₁ ∧ Blanks cs ∧ Settled k₁) ∧
      (spanless (valueWithin n)).Reads k₁ g k₂ ∧ nd = g ⟨k₁.offset, k₂.offset⟩ ∧
        k₂.Passes ds k' ∧ Blanks ds ∧ Settled k' := by
  simp only [valueWithin, reads_padded, reads_bind]
  constructor
  · rintro ⟨cs, ds, k₁, k₂, h₁, ⟨⟨span, g⟩, k₃, hg, he⟩, h₂⟩
    obtain ⟨rfl, rfl⟩ := reads_pure.mp he
    obtain ⟨rfl, hr⟩ := reads_spanned.mp hg
    exact ⟨cs, ds, k₁, _, g, h₁, hr, rfl, h₂⟩
  · rintro ⟨cs, ds, k₁, k₂, g, h₁, hg, rfl, h₂⟩
    refine ⟨cs, ds, k₁, k₂, h₁, ⟨(⟨k₁.offset, k₂.offset⟩, g), k₂, reads_spanned.mpr ⟨rfl, hg⟩, ?_⟩, h₂⟩
    exact reads_pure.mpr ⟨rfl, rfl⟩

/-- What is read of a value without blanks around it, one level further in. -/
theorem sound_spanless {n : Nat} (h : ReadsForms (valueWithin n) (Readable n)) {g : Span → Node}
    (hr : (spanless (valueWithin n)).Reads k g k') : ∃ f, Readable (n + 1) f ∧ k.Passes f.chars k' ∧
      g ⟨k.offset, k'.offset⟩ = f.node k.offset := by
  rcases reads_spanless hr with ⟨l, hg, ha, hp, rfl⟩ | ⟨items, hi, rfl⟩ | ⟨ms, hm, rfl⟩
  · refine ⟨.literal l, ⟨hg, ha⟩, hp, ?_⟩
    simp only [Form.node, hp.offset]
  · obtain ⟨gap, is, hb, his, hp, rfl⟩ := (reads_array h).mp hi
    refine ⟨.array gap is, ⟨hb, his⟩, hp, ?_⟩
    simp only [Form.node_array, hp.offset]
  · obtain ⟨gap, all, hb, hall, hp, rfl⟩ := (reads_object h).mp hm
    refine ⟨.object gap all, ⟨hb, hall⟩, hp, ?_⟩
    simp only [Form.node_object, hp.offset]

theorem complete_spanless {n : Nat} (h : ReadsForms (valueWithin n) (Readable n)) {f : Form}
    (hf : Readable (n + 1) f) (hp : k.Passes f.chars k')
    (hk' : StartsOutside continuesNumber k'.ahead) : ∃ g,
      (spanless (valueWithin n)).Reads k g k' ∧ g ⟨k.offset, k'.offset⟩ = f.node k.offset := by
  cases f with
  | literal l =>
    refine ⟨_, reads_spanless_literal hf.1 hf.2 hp hk', ?_⟩
    simp only [Form.node, hp.offset, Form.chars]
  | array gap items =>
    refine ⟨_, reads_spanless_array ((reads_array h).mpr ⟨gap, items, hf.1, hf.2, hp, rfl⟩), ?_⟩
    simp only [Form.node_array, hp.offset]
  | object gap members =>
    refine ⟨_, reads_spanless_object ((reads_object h).mpr ⟨gap, members, hf.1, hf.2, hp, rfl⟩), ?_⟩
    simp only [Form.node_object, hp.offset]

theorem misses_valueWithin {n : Nat} (h : Stops k.ahead) : (valueWithin n).Misses k := by
  cases n with
  | zero => rfl
  | succ n =>
    refine misses_padded h.settled (misses_bind.mpr (.inl (misses_spanned.mpr (misses_spanless ?_))))
    exact h.startsOutside (by decide)

/-- Blanks do not continue a number, nor does what follows them. -/
theorem startsOutside_blanks {cs rest : List Char} (hb : Blanks cs)
    (h : StartsOutside continuesNumber rest) : StartsOutside continuesNumber (cs ++ rest) := by
  cases cs with
  | nil => exact h
  | cons c cs =>
    refine startsOutside_cons.mpr ?_
    cases hn : continuesNumber c with
    | false => rfl
    | true =>
      have hblank := hb c List.mem_cons_self
      rw [not_isBlank_of_continuesNumber hn] at hblank
      cases hblank

/-- A blank, or what can follow a value, does not continue a number. -/
theorem startsOutside_continuesNumber {after : List Char} (ha : Blanks after) (h : k.Passes after k')
    (hk' : Stops k'.ahead) : StartsOutside continuesNumber k.ahead := by
  rw [h.ahead]
  exact startsOutside_blanks ha (hk'.startsOutside (by decide))

/-- **The rule for values** reads readable forms with blanks around them. -/
theorem reads_valueWithin (n : Nat) : ReadsForms (valueWithin n) (Readable n) := by
  induction n with
  | zero =>
    refine ⟨fun h => absurd h not_reads_fail, fun _ h => ?_, fun h => ?_, misses_valueWithin⟩
    · cases h
    · cases h
  | succ n ih =>
    refine ⟨fun {k nd k'} h => ?_, fun {k pad f k'} hb hf hp hk' => ?_, grammatical_of_readable,
      misses_valueWithin⟩
    · obtain ⟨cs, ds, k₁, k₂, g, ⟨h₁, hb, -⟩, hg, rfl, h₂, hd, hk'⟩ := reads_valueWithin_succ.mp h
      obtain ⟨f, hf, hp, he⟩ := sound_spanless ih hg
      refine ⟨⟨cs, ds⟩, f, ⟨hb, hd⟩, hf, (h₁.trans hp).trans h₂, hk', ?_⟩
      rw [he, h₁.offset]
    · obtain ⟨k₂, h', h₃⟩ := Cursor.passes_append.mp hp
      obtain ⟨k₁, h₁, h₂⟩ := Cursor.passes_append.mp h'
      obtain ⟨g, hg, he⟩ := complete_spanless ih hf h₂ (startsOutside_continuesNumber hb.2 h₃ hk')
      have hk₁ : Settled k₁ := by
        have hp : k₁.Passes (f.chars ++ []) k₂ := by rwa [List.append_nil]
        exact settled_of_passes_chars (grammatical_of_readable hf) hp
      refine reads_valueWithin_succ.mpr ⟨pad.before, pad.after, k₁, k₂, g, ⟨h₁, hb.1, hk₁⟩, hg, ?_, h₃,
        hb.2, hk'.settled⟩
      rw [he, h₁.offset]

end JsonSelect.Reading
