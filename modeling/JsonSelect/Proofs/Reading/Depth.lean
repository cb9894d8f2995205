import JsonSelect.Proofs.Reading.Values
import JsonSelect.Reading.Depth

/-! # The depth that is counted

The count of brackets reads a source before the grammar does, one character at a time. On the text of a
form it agrees with how deep the form nests: the brackets in string literals are passed over, and each
container counts its parts one deeper (`nests_chars`). So a source is refused for its depth exactly when
its form nests too deep (`tooDeepAt_eq_none`). -/

namespace JsonSelect.Reading

open Rule Written Text

/-! ### Counts that stay low -/

namespace DepthScan

/-- The count from `s` over a text never exceeds the bound. -/
def Shallow (s : DepthScan) : List Char → Prop
  | [] => True
  | c :: cs => (s.step c).depth ≤ maxDepth ∧ (s.step c).Shallow cs

theorem tooDeepFrom?_eq_none {s : DepthScan} {cs : List Char} (offset : Nat) :
    s.tooDeepFrom? offset cs = none ↔ s.Shallow cs := by
  induction cs generalizing s offset with
  | nil => simp [tooDeepFrom?, Shallow]
  | cons c cs ih =>
    unfold tooDeepFrom? Shallow
    by_cases h : maxDepth < (s.step c).depth
    · simp [h, Nat.not_le.mpr h]
    · simp [h, Nat.not_lt.mp h, ih]

theorem scan_append (s : DepthScan) (cs ds : List Char) :
    s.scan (cs ++ ds) = (s.scan cs).scan ds := List.foldl_append ..

theorem shallow_append {s : DepthScan} {cs ds : List Char} :
    s.Shallow (cs ++ ds) ↔ s.Shallow cs ∧ (s.scan cs).Shallow ds := by
  induction cs generalizing s with
  | nil => simp [Shallow, scan]
  | cons c cs ih => simp [Shallow, ih, scan, and_assoc]

/-- The count between tokens, with `d` brackets open. -/
def between (d : Nat) : DepthScan := ⟨d, false, false⟩

/-- The count in a string literal, with `d` brackets open. -/
def within (d : Nat) : DepthScan := ⟨d, true, false⟩

end DepthScan

open DepthScan

/-- The text opens at most `m` brackets inside one another, and closes them all. -/
structure Nests (cs : List Char) (m : Nat) : Prop where
  scan : ∀ d, (between d).scan cs = between d
  shallow : ∀ d ≤ maxDepth, (between d).Shallow cs ↔ d + m ≤ maxDepth

theorem nests_nil : Nests [] 0 := ⟨fun _ => rfl, fun d hd => by simp [Shallow, hd]⟩

theorem Nests.append {cs ds : List Char} {m n : Nat} (h : Nests cs m) (h' : Nests ds n) :
    Nests (cs ++ ds) (max m n) := by
  refine ⟨fun d => ?_, fun d hd => ?_⟩
  · rw [scan_append, h.scan, h'.scan]
  · rw [shallow_append, h.scan, h.shallow d hd, h'.shallow d hd]
    omega

/-- Text around a text with brackets, without any itself. -/
theorem Nests.around {p : Pad} {cs : List Char} {m : Nat} (hb : Nests p.before 0) (h : Nests cs m)
    (ha : Nests p.after 0) : Nests (p.around cs) m := by
  have := (hb.append h).append ha
  rwa [Nat.zero_max, Nat.max_zero] at this

/-! ### Texts without brackets -/

/-- The character is no quotation mark and no bracket. -/
def isFlat (c : Char) : Bool := c ≠ '"' && !isOpening c && !isClosing c

theorem step_flat {c : Char} (h : isFlat c = true) (d : Nat) :
    (between d).step c = between d := by
  simp only [isFlat, Bool.and_eq_true, decide_eq_true_eq, Bool.not_eq_true'] at h
  obtain ⟨⟨hq, ho⟩, hc⟩ := h
  simp [step, between, hq, ho, hc]

theorem nests_flat {cs : List Char} (h : ∀ c ∈ cs, isFlat c = true) : Nests cs 0 := by
  induction cs with
  | nil => exact nests_nil
  | cons c cs ih =>
    obtain ⟨hc, hcs⟩ := List.forall_mem_cons.mp h
    have ih := ih hcs
    refine ⟨fun d => ?_, fun d hd => ?_⟩
    · have := ih.scan d
      rwa [DepthScan.scan, List.foldl_cons, step_flat hc]
    · rw [Shallow, step_flat hc, ih.shallow d hd]
      simp [between, hd]

/-- A text in which each character was tried. -/
theorem nests_token {cs : List Char} (h : cs.all isFlat = true) : Nests cs 0 :=
  nests_flat (List.all_eq_true.mp h)

theorem isFlat_of_isBlank {c : Char} (h : isBlank c = true) : isFlat c = true := by
  cases hf : isFlat c with
  | true => rfl
  | false =>
    have hs : "\"[\x7b]\x7d".toList.any isBlank = false := by decide
    have hc : c ∈ "\"[\x7b]\x7d".toList := by
      simp only [isFlat, isOpening, isClosing, Bool.and_eq_false_iff, Bool.not_eq_false',
        decide_eq_false_iff_not, Bool.or_eq_true, decide_eq_true_eq, Decidable.not_not] at hf
      rcases hf with (rfl | rfl | rfl) | rfl | rfl <;> decide
    rw [eq_false_of_any hs c hc] at h
    cases h

theorem nests_blanks {cs : List Char} (h : Blanks cs) : Nests cs 0 :=
  nests_flat fun c hc => isFlat_of_isBlank (h c hc)

theorem nests_number {l : NumberLiteral} (hl : GrammaticalNumber l) : Nests l.chars 0 := by
  have hflat : "0123456789+-.eE".toList.all isFlat = true := by decide
  exact nests_flat (forall_number (List.all_eq_true.mp hflat) hl)

/-! ### String literals -/

/-- A character of a string literal that ends nothing. -/
theorem step_within {c : Char} (hq : c ≠ '"') (hb : c ≠ '\\') (d : Nat) :
    (within d).step c = within d := by
  simp [step, within, hq, hb]

/-- A backslash and the character behind it. -/
theorem step_escape (c : Char) (d : Nat) : ((within d).step '\\').step c = within d := rfl

/-- The digits of a code unit. -/
theorem step_unitOf {h₁ h₂ h₃ h₄ : Char} {unit : Nat} (h : unitOf? h₁ h₂ h₃ h₄ = some unit) (d : Nat) :
    (within d).step h₁ = within d ∧ (within d).step h₂ = within d ∧
      (within d).step h₃ = within d ∧ (within d).step h₄ = within d := by
  have hs : "0123456789abcdefABCDEF".toList.all (fun c => c ≠ '"' ∧ c ≠ '\\') = true := by decide
  refine forall_of_unitOf (P := fun c => (within d).step c = within d) (fun c hc => ?_) h
  have := List.all_eq_true.mp hs c hc
  simp only [decide_eq_true_eq] at this
  exact step_within this.1 this.2 d

/-- The contents of a string literal are passed over. -/
theorem scan_contents {ps : List Piece} {raw : List Char} (h : Spells ps raw) (d : Nat) :
    (within d).scan raw = within d := by
  unfold DepthScan.scan
  induction h with
  | nil => rfl
  | plain hq hb _ ih => rw [List.foldl_cons, step_within hq hb, ih]
  | short _ _ ih => rw [List.foldl_cons, List.foldl_cons, step_escape, ih]
  | unicode hu _ ih =>
    obtain ⟨h₁, h₂, h₃, h₄⟩ := step_unitOf hu d
    simp only [List.foldl_cons, step_escape, h₁, h₂, h₃, h₄, ih]

theorem shallow_contents {ps : List Piece} {raw : List Char} (h : Spells ps raw) {d : Nat}
    (hd : d ≤ maxDepth) : (within d).Shallow raw := by
  induction h with
  | nil => exact trivial
  | plain hq hb _ ih =>
    rw [Shallow, step_within hq hb]
    exact ⟨hd, ih⟩
  | short _ _ ih =>
    rw [Shallow, Shallow, step_escape]
    exact ⟨hd, hd, ih⟩
  | unicode hu _ ih =>
    obtain ⟨h₁, h₂, h₃, h₄⟩ := step_unitOf hu d
    simp only [Shallow, step_escape, h₁, h₂, h₃, h₄]
    exact ⟨hd, hd, hd, hd, hd, hd, ih⟩

theorem nests_enclosed {raw : List Char} (h : Contents raw) : Nests (enclosed raw) 0 := by
  obtain ⟨ps, h⟩ := h
  have hopen : ∀ d, (between d).step '"' = within d := fun _ => rfl
  have hclose : ∀ d, (within d).step '"' = between d := fun _ => rfl
  refine ⟨fun d => ?_, fun d hd => ?_⟩
  · have hs := scan_contents h d
    unfold DepthScan.scan at hs ⊢
    rw [enclosed, List.foldl_cons, hopen, List.foldl_append, hs]
    rfl
  · rw [enclosed, Shallow, hopen, shallow_append, scan_contents h, Shallow, hclose]
    exact iff_of_true ⟨hd, shallow_contents h hd, hd, trivial⟩ hd

/-! ### Containers -/

/-- Brackets around a text count one deeper. -/
theorem Nests.brackets {l r : Char} {cs : List Char} {m : Nat} (h : Nests cs m)
    (hl : l = '[' ∨ l = '\x7b') (hr : r = ']' ∨ r = '\x7d') : Nests (l :: (cs ++ [r])) (m + 1) := by
  have hopen : ∀ d, (between d).step l = between (d + 1) := by
    rcases hl with rfl | rfl <;> exact fun _ => rfl
  have hclose : ∀ d, (between (d + 1)).step r = between d := by
    rcases hr with rfl | rfl <;> exact fun _ => rfl
  refine ⟨fun d => ?_, fun d hd => ?_⟩
  · have hs := h.scan (d + 1)
    unfold DepthScan.scan at hs ⊢
    rw [List.foldl_cons, hopen, List.foldl_append, hs, List.foldl_cons, hclose]
    rfl
  · rw [Shallow, hopen, shallow_append, h.scan, Shallow, hclose]
    by_cases hd' : d + 1 ≤ maxDepth
    · rw [h.shallow (d + 1) hd']
      simp only [between, Shallow, hd', hd, true_and, and_true]
      omega
    · simp only [between, hd', false_and, false_iff]
      omega

/-- Texts with commas between them are as deep as the deepest one. -/
theorem nests_texts {β α : Type} {e : Entries β α} {depth : β → Nat} {bs : List β}
    (h : ∀ b ∈ bs, Nests (e.text b) (depth b)) :
    Nests (e.texts bs) ((bs.map depth).foldr max 0) := by
  have hcomma : Nests [','] 0 := nests_token (by decide)
  have hfurther : ∀ bs : List β, (∀ b ∈ bs, Nests (e.text b) (depth b)) →
      Nests (e.further bs) ((bs.map depth).foldr max 0) := by
    intro bs
    induction bs with
    | nil => exact fun _ => nests_nil
    | cons b bs ih =>
      intro h
      obtain ⟨hb, hbs⟩ := List.forall_mem_cons.mp h
      have := (hcomma.append hb).append (ih hbs)
      rwa [Nat.zero_max] at this
  cases bs with
  | nil => exact nests_nil
  | cons b bs =>
    obtain ⟨hb, hbs⟩ := List.forall_mem_cons.mp h
    rw [e.texts_cons]
    exact hb.append (hfurther bs hbs)

/-! ### Forms -/

theorem nests_literal {l : Literal} (h : (Form.literal l).Grammatical) : Nests l.chars 0 := by
  cases l with
  | null => exact nests_token (by decide)
  | boolean b => cases b <;> exact nests_token (by decide)
  | number l => exact nests_number h
  | string raw => exact nests_enclosed h

/-- A key and the colon behind it. -/
theorem nests_front {l : Written.Label} (hraw : Contents l.raw)
    (hcolon : Blanks l.colon.before ∧ Blanks l.colon.after) : Nests l.front 0 := by
  have hsymbol : Nests [':'] 0 := nests_token (by decide)
  have := (nests_enclosed hraw).append ((nests_blanks hcolon.1).around hsymbol (nests_blanks hcolon.2))
  rwa [Nat.max_self] at this

/-- **The count of brackets** in the text of a form is its depth. -/
theorem nests_chars {f : Form} : f.Grammatical → Nests f.chars f.depth := by
  induction f using Form.induction with
  | literal l => exact nests_literal
  | array gap items ih =>
    intro h
    obtain ⟨hg, hi⟩ := Form.grammatical_array.mp h
    have htexts : ∀ i ∈ items, Nests (itemEntries.text i) i.2.depth := by
      intro i hmem
      obtain ⟨⟨hb, ha⟩, hf⟩ := hi i hmem
      have := (nests_blanks hb).around (ih i hmem hf) (nests_blanks ha)
      rwa [Pad.around, List.append_assoc] at this
    have := (nests_blanks hg).append (nests_texts htexts)
    rw [Nat.zero_max, ← Form.itemDepth_eq] at this
    rw [Form.chars_array, Form.depth]
    exact this.brackets (.inl rfl) (.inl rfl)
  | object gap members ih =>
    intro h
    obtain ⟨hg, hm⟩ := Form.grammatical_object.mp h
    have htexts : ∀ m ∈ members, Nests (memberEntries.text m) m.2.depth := by
      intro m hmem
      obtain ⟨⟨hb, ha⟩, hc, hcolon, hf⟩ := hm m hmem
      have hbody := ((nests_front hc hcolon).append (ih m hmem hf)).append (nests_blanks ha)
      have := (nests_blanks hb).append hbody
      rwa [Nat.zero_max, Nat.max_zero, Nat.zero_max] at this
    have := (nests_blanks hg).append (nests_texts htexts)
    rw [Nat.zero_max, ← Form.memberDepth_eq] at this
    rw [Form.chars_object, Form.depth]
    exact this.brackets (.inr rfl) (.inr rfl)

/-- A source is not refused for its depth as long as its form does not nest too deep. -/
theorem tooDeepAt_eq_none {source : List Char} {pad : Pad} {f : Form} (h : Derives source pad f) :
    tooDeepAt? source = none ↔ f.depth ≤ maxDepth := by
  have hn := (nests_blanks h.before).around (nests_chars h.grammatical) (nests_blanks h.after)
  have hs := hn.shallow 0 (Nat.zero_le _)
  rw [Nat.zero_add, ← tooDeepFrom?_eq_none 0, ← h.source_eq] at hs
  exact hs

end JsonSelect.Reading
