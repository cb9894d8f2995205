import JsonSelect.Proofs.Written.Entries
import Mathlib.Data.List.Basic

/-! # Layouts

The text of a form falls into stretches, one after the other: tokens, the blanks and separators between
them, and the members of objects that are overridden because their names come again. `Form.layout` is the
row of stretches of a form, and puts together its text (`text_layout`).

* `tokenSpans`: where the tokens of a layout stand.
* `regionAt`: what the byte at an offset belongs to. A byte belongs to a token exactly when the span of a
  token covers it (`covers_tokenSpans_iff`). -/

namespace JsonSelect.Written

open Reading

/-! ### Stretches -/

/-- What a stretch of a source is. -/
inductive Region where
  /-- A literal, a key or a bracket. -/
  | token
  /-- Blanks between two tokens. -/
  | blank
  /-- A comma or a colon between two tokens. -/
  | separator
  /-- A member of an object, from its key to its value, whose name comes again. -/
  | overridden
deriving DecidableEq, Repr

/-- A stretch of a source. -/
structure Stretch where
  region : Region
  chars : List Char

/-- The text of stretches. -/
def text (ss : List Stretch) : List Char := ss.flatMap (·.chars)

/-- The spans of the tokens among stretches that start at `start`. -/
def tokenSpans (start : Nat) : List Stretch → List Span
  | [] => []
  | s :: ss =>
    (if s.region = .token then [⟨start, start + byteLength s.chars⟩] else []) ++
      tokenSpans (start + byteLength s.chars) ss

/-- What the byte at an offset belongs to. -/
def regionAt (offset : Nat) : List Stretch → Option Region
  | [] => none
  | s :: ss =>
    if offset < byteLength s.chars then some s.region else regionAt (offset - byteLength s.chars) ss

variable {s : Stretch} {ss ts : List Stretch} {start offset : Nat}

@[simp] theorem text_nil : text [] = [] := rfl

@[simp] theorem text_cons (s : Stretch) (ss : List Stretch) : text (s :: ss) = s.chars ++ text ss := rfl

@[simp] theorem text_append (ss ts : List Stretch) : text (ss ++ ts) = text ss ++ text ts := by
  simp [text]

theorem tokenSpans_append (start : Nat) (ss ts : List Stretch) : tokenSpans start (ss ++ ts) =
    tokenSpans start ss ++ tokenSpans (start + byteLength (text ss)) ts := by
  induction ss generalizing start with
  | nil => rfl
  | cons s ss ih =>
    rw [List.cons_append, tokenSpans, tokenSpans, ih, text_cons, byteLength_append, Nat.add_assoc,
      List.append_assoc]

theorem tokenSpans_of_ne (h : s.region ≠ .token) :
    tokenSpans start (s :: ss) = tokenSpans (start + byteLength s.chars) ss := by
  rw [tokenSpans, if_neg h, List.nil_append]

/-! ### Where tokens stand -/

/-- A token stands where the stretches in front of it end. -/
theorem exists_of_mem_tokenSpans {span : Span} (h : span ∈ tokenSpans start ss) :
    ∃ before s after, ss = before ++ s :: after ∧ s.region = .token ∧
      span = ⟨start + byteLength (text before), start + byteLength (text before ++ s.chars)⟩ := by
  induction ss generalizing start with
  | nil => cases h
  | cons s ss ih =>
    rcases List.mem_append.mp h with h | h
    · split at h
      · next hs =>
        obtain rfl := List.mem_singleton.mp h
        exact ⟨[], s, ss, rfl, hs, rfl⟩
      · cases h
    · obtain ⟨before, s', after, rfl, hs, rfl⟩ := ih h
      refine ⟨s :: before, s', after, rfl, hs, ?_⟩
      simp only [text_cons, byteLength_append, Nat.add_assoc]

theorem le_start_of_mem_tokenSpans {span : Span} (h : span ∈ tokenSpans start ss) :
    start ≤ span.start := by
  obtain ⟨before, s, after, -, -, rfl⟩ := exists_of_mem_tokenSpans h
  exact Nat.le_add_right _ _

/-- Tokens stand one after the other. -/
theorem pairwise_tokenSpans (start : Nat) (ss : List Stretch) :
    (tokenSpans start ss).Pairwise fun a b => a.stop ≤ b.start := by
  induction ss generalizing start with
  | nil => exact .nil
  | cons s ss ih =>
    refine List.pairwise_append.mpr ⟨?_, ih _, fun a ha b hb => ?_⟩
    · split
      · exact List.pairwise_singleton _ _
      · exact .nil
    · split at ha
      · obtain rfl := List.mem_singleton.mp ha
        exact le_start_of_mem_tokenSpans hb
      · cases ha

theorem exists_regionAt (h : offset < byteLength (text ss)) : ∃ r, regionAt offset ss = some r := by
  induction ss generalizing offset with
  | nil => cases h
  | cons s ss ih =>
    rw [regionAt]
    split
    · exact ⟨s.region, rfl⟩
    · rw [text_cons, byteLength_append] at h
      exact ih (by omega)

/-- **A byte belongs to a token** when the span of a token covers it. -/
theorem covers_tokenSpans_iff (start offset : Nat) (ss : List Stretch) : (∃ span ∈ tokenSpans start ss, span.covers (start + offset)) ↔
    regionAt offset ss = some .token := by
  induction ss generalizing start offset with
  | nil => simp [tokenSpans, regionAt]
  | cons s ss ih =>
    have hrest : ∀ span ∈ tokenSpans (start + byteLength s.chars) ss, span.covers (start + offset) →
        byteLength s.chars ≤ offset := fun span hs hc => by
      have := le_start_of_mem_tokenSpans hs
      simp only [Span.covers, Bool.and_eq_true, decide_eq_true_eq] at hc
      omega
    rw [tokenSpans, regionAt]
    by_cases ho : offset < byteLength s.chars
    · have hno : ¬ ∃ span ∈ tokenSpans (start + byteLength s.chars) ss,
          span.covers (start + offset) := by
        rintro ⟨span, hs, hc⟩
        have := hrest span hs hc
        omega
      rw [if_pos ho]
      by_cases hs : s.region = .token
      · simp [hs, Span.covers, ho]
      · rw [if_neg hs, List.nil_append]
        simp only [hno, Option.some.injEq, hs]
    · have ih := ih (start + byteLength s.chars) (offset - byteLength s.chars)
      have he : start + byteLength s.chars + (offset - byteLength s.chars) = start + offset := by omega
      rw [he] at ih
      rw [if_neg ho, ← ih]
      constructor
      · rintro ⟨span, hs, hc⟩
        rcases List.mem_append.mp hs with hs | hs
        · split at hs
          · obtain rfl := List.mem_singleton.mp hs
            simp only [Span.covers, Bool.and_eq_true, decide_eq_true_eq] at hc
            omega
          · cases hs
        · exact ⟨span, hs, hc⟩
      · rintro ⟨span, hs, hc⟩
        exact ⟨span, List.mem_append_right _ hs, hc⟩

/-! ### Stretches of forms -/

/-- Rows of stretches with a comma between two of them. -/
def commaSeparated (rows : List (List Stretch)) : List Stretch :=
  [⟨.separator, [',']⟩].intercalate rows

/-- Stretches with a pad around them. -/
def Pad.layout (p : Pad) (ss : List Stretch) : List Stretch :=
  ⟨.blank, p.before⟩ :: (ss ++ [⟨.blank, p.after⟩])

/-- The stretches of a member in front of its value. -/
def Label.layout (l : Label) : List Stretch :=
  ⟨.token, enclosed l.raw⟩ :: l.colon.layout [⟨.separator, [':']⟩]

namespace Form

mutual

/-- The stretches of a form. -/
def layout : Form → List Stretch
  | .literal l => [⟨.token, l.chars⟩]
  | .array gap items =>
    ⟨.token, ['[']⟩ :: ⟨.blank, gap⟩ ::
      (commaSeparated (itemLayouts items) ++ [⟨.token, [']']⟩])
  | .object gap members =>
    ⟨.token, ['\x7b']⟩ :: ⟨.blank, gap⟩ ::
      (commaSeparated (memberLayouts members) ++ [⟨.token, ['\x7d']⟩])

/-- The stretches of each item of an array. -/
def itemLayouts : List (Pad × Form) → List (List Stretch)
  | [] => []
  | (pad, f) :: items => pad.layout f.layout :: itemLayouts items

/-- The stretches of each member of an object. A member whose name comes again is one stretch. -/
def memberLayouts : List (Label × Form) → List (List Stretch)
  | [] => []
  | (label, f) :: members =>
    label.outer.layout
      (if label.name ∈ members.map (·.1.name) then [⟨.overridden, label.front ++ f.chars⟩]
        else label.layout ++ f.layout) :: memberLayouts members

end

end Form

theorem commaSeparated_cons (row row' : List Stretch) (rows : List (List Stretch)) :
    commaSeparated (row :: row' :: rows) =
      row ++ ⟨.separator, [',']⟩ :: commaSeparated (row' :: rows) := by
  simp [commaSeparated]

theorem text_commaSeparated (rows : List (List Stretch)) :
    text (commaSeparated rows) = Form.commas (rows.map text) := by
  induction rows with
  | nil => rfl
  | cons row rows ih =>
    cases rows with
    | nil => simp [commaSeparated, Form.commas]
    | cons row' rows =>
      rw [commaSeparated_cons, text_append, text_cons, ih]
      simp [Form.commas]

@[simp] theorem Pad.text_layout (p : Pad) (ss : List Stretch) :
    text (p.layout ss) = p.around (text ss) := by
  simp [Pad.layout, Pad.around]

theorem Label.text_layout (l : Label) : text l.layout = l.front := by
  simp [Label.layout, Label.front]

namespace Form

/-- **The layout of a form** puts together its text. -/
theorem text_layout (f : Form) : text f.layout = f.chars := by
  induction f using Form.induction with
  | literal l => simp [layout, chars]
  | array gap items ih =>
    have hrows : (itemLayouts items).map text = itemTexts items := by
      induction items with
      | nil => rfl
      | cons i items ihs =>
        obtain ⟨hi, his⟩ := List.forall_mem_cons.mp ih
        rw [itemLayouts, List.map_cons, ihs his, Pad.text_layout, hi, itemTexts]
    simp [layout, chars, text_commaSeparated, hrows]
  | object gap members ih =>
    have hrows : (memberLayouts members).map text = memberTexts members := by
      induction members with
      | nil => rfl
      | cons m members ihs =>
        obtain ⟨hm, hms⟩ := List.forall_mem_cons.mp ih
        rw [memberLayouts, List.map_cons, ihs hms, Pad.text_layout, memberTexts]
        split
        · simp
        · rw [text_append, Label.text_layout, hm]
    simp [layout, chars, text_commaSeparated, hrows]

end Form

/-! ### What holds of all stretches -/

theorem mem_commaSeparated {rows : List (List Stretch)} (h : s ∈ commaSeparated rows) :
    s = ⟨.separator, [',']⟩ ∨ ∃ row ∈ rows, s ∈ row := by
  induction rows with
  | nil => cases h
  | cons row rows ih =>
    cases rows with
    | nil => exact .inr ⟨row, by simp, by simpa [commaSeparated] using h⟩
    | cons row' rows =>
      rw [commaSeparated_cons] at h
      rcases List.mem_append.mp h with h | h
      · exact .inr ⟨row, by simp, h⟩
      · rcases List.mem_cons.mp h with rfl | h
        · exact .inl rfl
        · rcases ih h with h | ⟨row'', hr, h⟩
          · exact .inl h
          · exact .inr ⟨row'', by simp [hr], h⟩

namespace Form

theorem mem_itemLayouts {items : List (Pad × Form)} {row : List Stretch} :
    row ∈ itemLayouts items ↔ ∃ i ∈ items, i.1.layout i.2.layout = row := by
  induction items with
  | nil => simp [itemLayouts]
  | cons i items ih => simp [itemLayouts, ih, eq_comm]

theorem mem_memberLayouts {members : List (Label × Form)} {row : List Stretch}
    (h : row ∈ memberLayouts members) : ∃ m ∈ members,
      row = m.1.outer.layout [⟨.overridden, m.1.front ++ m.2.chars⟩] ∨
        row = m.1.outer.layout (m.1.layout ++ m.2.layout) := by
  induction members with
  | nil => cases h
  | cons m members ih =>
    rcases List.mem_cons.mp h with rfl | h
    · refine ⟨m, by simp, ?_⟩
      split
      · exact .inl rfl
      · exact .inr rfl
    · obtain ⟨m', hm, hr⟩ := ih h
      exact ⟨m', by simp [hm], hr⟩

end Form

section Forall
variable {P : Stretch → Prop}

theorem forall_commaSeparated {rows : List (List Stretch)} (hcomma : P ⟨.separator, [',']⟩)
    (h : ∀ row ∈ rows, ∀ s ∈ row, P s) : ∀ s ∈ commaSeparated rows, P s := by
  intro s hs
  rcases mem_commaSeparated hs with rfl | ⟨row, hr, hs⟩
  · exact hcomma
  · exact h row hr s hs

theorem Pad.forall_layout {p : Pad} (hb : P ⟨.blank, p.before⟩) (ha : P ⟨.blank, p.after⟩)
    (h : ∀ s ∈ ss, P s) : ∀ s ∈ p.layout ss, P s := by
  intro s hs
  simp only [layout, List.mem_cons, List.mem_append, List.not_mem_nil, or_false] at hs
  rcases hs with rfl | hs | rfl
  · exact hb
  · exact h s hs
  · exact ha

theorem forall_brackets {l r : Char} {gap : List Char} (hl : P ⟨.token, [l]⟩) (hg : P ⟨.blank, gap⟩)
    (h : ∀ s ∈ ss, P s) (hr : P ⟨.token, [r]⟩) :
    ∀ s ∈ (⟨.token, [l]⟩ :: ⟨.blank, gap⟩ :: (ss ++ [⟨.token, [r]⟩]) : List Stretch), P s := by
  intro s hs
  simp only [List.mem_cons, List.mem_append, List.not_mem_nil, or_false] at hs
  rcases hs with rfl | rfl | hs | rfl
  · exact hl
  · exact hg
  · exact h s hs
  · exact hr

theorem Label.forall_layout {l : Label} (hkey : P ⟨.token, enclosed l.raw⟩)
    (hcolon : ∀ s ∈ l.colon.layout [⟨.separator, [':']⟩], P s) : ∀ s ∈ l.layout, P s :=
  List.forall_mem_cons.mpr ⟨hkey, hcolon⟩

namespace Form

/-- **What holds of every stretch** of a form: it holds of brackets, separators and overridden members, and of
the literals, keys and blanks that the form consists of. -/
theorem forall_layout {number : NumberLiteral → Prop} {string between : List Char → Prop}
    (hliteral : ∀ l : Literal, (literal l).Each number string between → P ⟨.token, l.chars⟩)
    (hkey : ∀ raw, string raw → P ⟨.token, enclosed raw⟩)
    (hbracket : ∀ c ∈ "[]\x7b\x7d".toList, P ⟨.token, [c]⟩)
    (hblank : ∀ cs, between cs → P ⟨.blank, cs⟩)
    (hseparator : ∀ c ∈ ",:".toList, P ⟨.separator, [c]⟩)
    (hoverridden : ∀ cs, P ⟨.overridden, cs⟩) {f : Form} :
    f.Each number string between → ∀ s ∈ f.layout, P s := by
  have hpad : ∀ {p : Pad} {ss : List Stretch}, between p.before ∧ between p.after →
      (∀ s ∈ ss, P s) → ∀ s ∈ p.layout ss, P s := fun hp =>
    Pad.forall_layout (hblank _ hp.1) (hblank _ hp.2)
  have hcomma : P ⟨.separator, [',']⟩ := hseparator ',' (by decide)
  have hcolon : P ⟨.separator, [':']⟩ := hseparator ':' (by decide)
  induction f using Form.induction with
  | literal l =>
    intro h s hs
    obtain rfl := List.mem_singleton.mp hs
    exact hliteral l h
  | array gap items ih =>
    intro h
    obtain ⟨hg, hi⟩ := h
    rw [eachItem_iff] at hi
    refine forall_brackets (hbracket _ (by decide)) (hblank _ hg)
      (forall_commaSeparated hcomma fun row hr => ?_) (hbracket _ (by decide))
    obtain ⟨i, hmem, rfl⟩ := mem_itemLayouts.mp hr
    exact hpad (hi i hmem).1 (ih i hmem (hi i hmem).2)
  | object gap members ih =>
    intro h
    obtain ⟨hg, hm⟩ := h
    rw [eachMember_iff] at hm
    refine forall_brackets (hbracket _ (by decide)) (hblank _ hg)
      (forall_commaSeparated hcomma fun row hr => ?_) (hbracket _ (by decide))
    obtain ⟨m, hmem, hrow⟩ := mem_memberLayouts hr
    obtain ⟨ho, hs, hp, hf⟩ := hm m hmem
    rcases hrow with rfl | rfl
    · refine hpad ho fun s hs => ?_
      obtain rfl := List.mem_singleton.mp hs
      exact hoverridden _
    · refine hpad ho fun s hs' => ?_
      rcases List.mem_append.mp hs' with hs' | hs'
      · refine Label.forall_layout (hkey _ hs) (hpad hp fun s hs => ?_) s hs'
        obtain rfl := List.mem_singleton.mp hs
        exact hcolon
      · exact ih m hmem hf s hs'

end Form

end Forall

/-! ### What stretches consist of -/

/-- What a stretch consists of in a grammatical form. -/
def Stretch.Fitting (s : Stretch) : Prop :=
  match s.region with
  | .token => s.chars ≠ []
  | .blank => Blanks s.chars
  | .separator => s.chars = [','] ∨ s.chars = [':']
  | .overridden => True

theorem Literal.chars_ne_nil {l : Literal} (h : (Form.literal l).Grammatical) : l.chars ≠ [] := by
  cases l with
  | null => simp [chars]
  | boolean b => cases b <;> simp [chars]
  | number l =>
    have hw : l.whole ≠ [] := by
      rcases h.whole with h | ⟨h, -⟩
      · simp [h]
      · exact h.1
    simp [chars, NumberLiteral.chars, hw]
  | string raw => simp [chars, enclosed]

/-- **The stretches of a grammatical form** are what their regions say. -/
theorem Form.fitting_layout {f : Form} (h : f.Grammatical) : ∀ s ∈ f.layout, s.Fitting :=
  forall_layout (fun _ hl => Literal.chars_ne_nil hl) (fun _ _ => List.cons_ne_nil _ _)
    (fun _ _ => List.cons_ne_nil _ _) (fun _ hb => hb)
    (fun c hc => by simpa [Stretch.Fitting] using hc) (fun _ => trivial) h

end JsonSelect.Written
