import JsonSelect.Proofs.Written.Form

/-! # Entries of arrays and objects

The items of an array and the members of an object are written the same way: each entry has blanks in
front, its *lead*, and a *body* behind it, and there is a comma between two of them. `Entries` is what the
two have in common, so that what is said of the entries of a container is said once.

* `Form.induction`: a property of the parts of a form that holds of the form holds of every form.
* `itemTexts_eq`, `itemNodes_eq`, `memberTexts_eq`, `memberNodes_eq`: the texts and nodes of a form, as
  `texts` and `contents` of its entries.
* `grammatical_array`, `accepted_array`, `depth_array` and the lemmas on objects: what is true of a form in
  terms of its parts. -/

namespace JsonSelect.Written

open Text Reading

/-! ### Entries -/

/-- How entries `β` are written, and which content `α` an entry has whose body stands at an offset. -/
structure Entries (β α : Type) where
  lead : β → List Char
  body : β → List Char
  content : Nat → β → α

namespace Entries

variable {β α : Type} (e : Entries β α)

/-- The text of an entry. -/
def text (b : β) : List Char := e.lead b ++ e.body b

/-- The text of entries with commas between them. -/
def texts (bs : List β) : List Char := Form.commas (bs.map e.text)

/-- The text of entries behind another one. -/
def further (bs : List β) : List Char := bs.flatMap fun b => ',' :: e.text b

/-- The contents of entries of which the first text starts at `start`. -/
def contents (start : Nat) : List β → List α
  | [] => []
  | b :: bs =>
    e.content (start + byteLength (e.lead b)) b :: contents (start + byteLength (e.text b) + 1) bs

@[simp] theorem texts_nil : e.texts [] = [] := rfl

theorem texts_cons (b : β) (bs : List β) : e.texts (b :: bs) = e.text b ++ e.further bs := by
  induction bs generalizing b with
  | nil => simp [texts, further, Form.commas]
  | cons b' bs ih =>
    have h : e.texts (b :: b' :: bs) = e.text b ++ ',' :: e.texts (b' :: bs) := by
      simp [texts, Form.commas]
    rw [h, ih]
    simp [further]

@[simp] theorem further_nil : e.further [] = [] := rfl

theorem further_cons (b : β) (bs : List β) :
    e.further (b :: bs) = ',' :: (e.lead b ++ (e.body b ++ e.further bs)) := by
  simp [further, text]

/-- Each content is the content of its entry somewhere. -/
theorem mem_contents {start : Nat} {bs : List β} {a : α} (h : a ∈ e.contents start bs) :
    ∃ b ∈ bs, ∃ offset, a = e.content offset b := by
  induction bs generalizing start with
  | nil => cases h
  | cons b bs ih =>
    rcases List.mem_cons.mp h with rfl | h
    · exact ⟨b, by simp, _, rfl⟩
    · obtain ⟨b', hb, ho⟩ := ih h
      exact ⟨b', by simp [hb], ho⟩

end Entries

/-- The second part of an entry is smaller than the row. -/
theorem sizeOf_snd_lt {β α : Type} [SizeOf β] [SizeOf α] {p : β × α} {ps : List (β × α)} (h : p ∈ ps) :
    sizeOf p.2 < sizeOf ps := by
  have := List.sizeOf_lt_of_mem h
  have hs : sizeOf p = 1 + sizeOf p.1 + sizeOf p.2 := by cases p; rfl
  omega

/-- The items of an array, with their nodes. -/
def itemEntries : Entries (Pad × Form) Node where
  lead i := i.1.before
  body i := i.2.chars ++ i.1.after
  content offset i := i.2.node offset

/-- The members of an object, with their keys and nodes. -/
def memberEntries : Entries (Label × Form) (Key × Node) where
  lead m := m.1.outer.before
  body m := m.1.front ++ m.2.chars ++ m.1.outer.after
  content offset m := (⟨m.1.name, ⟨offset, offset + byteLength (enclosed m.1.raw)⟩⟩,
    m.2.node (offset + byteLength m.1.front))

namespace Form

/-! ### Forms by their entries -/

/-- **Induction** on the parts of a form. -/
@[elab_as_elim]
theorem induction {P : Form → Prop} (literal : ∀ l, P (.literal l))
    (array : ∀ gap items, (∀ i ∈ items, P i.2) → P (.array gap items))
    (object : ∀ gap members, (∀ m ∈ members, P m.2) → P (.object gap members)) (f : Form) : P f := by
  cases f with
  | literal l => exact literal l
  | array gap items =>
    refine array gap items fun i hi => ?_
    have := sizeOf_snd_lt hi
    exact induction literal array object i.2
  | object gap members =>
    refine object gap members fun m hm => ?_
    have := sizeOf_snd_lt hm
    exact induction literal array object m.2
termination_by sizeOf f

theorem itemTexts_eq (items : List (Pad × Form)) :
    commas (itemTexts items) = itemEntries.texts items := by
  unfold Entries.texts
  congr 1
  induction items with
  | nil => rfl
  | cons i items ih =>
    simp [itemTexts, ih, Entries.text, itemEntries, Pad.around]

theorem memberTexts_eq (members : List (Label × Form)) :
    commas (memberTexts members) = memberEntries.texts members := by
  unfold Entries.texts
  congr 1
  induction members with
  | nil => rfl
  | cons m members ih =>
    simp [memberTexts, ih, Entries.text, memberEntries, Pad.around]

theorem itemNodes_eq (start : Nat) (items : List (Pad × Form)) :
    itemNodes start items = itemEntries.contents start items := by
  induction items generalizing start with
  | nil => rfl
  | cons i items ih =>
    simp [itemNodes, ih, Entries.contents, Entries.text, itemEntries, Pad.around]

theorem memberNodes_eq (start : Nat) (members : List (Label × Form)) :
    memberNodes start members = memberEntries.contents start members := by
  induction members generalizing start with
  | nil => rfl
  | cons m members ih =>
    simp [memberNodes, ih, Entries.contents, Entries.text, memberEntries, Pad.around]

theorem itemValues_eq (items : List (Pad × Form)) : itemValues items = items.map (·.2.value) := by
  induction items with
  | nil => rfl
  | cons i items ih => simp [itemValues, ih]

theorem memberValues_eq (members : List (Label × Form)) :
    memberValues members = members.map fun m => (m.1.name, m.2.value) := by
  induction members with
  | nil => rfl
  | cons m members ih => simp [memberValues, ih]

theorem chars_array (gap : List Char) (items : List (Pad × Form)) :
    (array gap items).chars = '[' :: (gap ++ itemEntries.texts items ++ [']']) := by
  rw [chars, itemTexts_eq]

theorem chars_object (gap : List Char) (members : List (Label × Form)) :
    (object gap members).chars = '\x7b' :: (gap ++ memberEntries.texts members ++ ['\x7d']) := by
  rw [chars, memberTexts_eq]

theorem node_array (start : Nat) (gap : List Char) (items : List (Pad × Form)) :
    (array gap items).node start = .array ⟨start, start + byteLength (array gap items).chars⟩
      (itemEntries.contents (start + 1 + byteLength gap) items) := by
  rw [node, itemNodes_eq]

theorem node_object (start : Nat) (gap : List Char) (members : List (Label × Form)) :
    (object gap members).node start = .object ⟨start, start + byteLength (object gap members).chars⟩
      (Members.collapse (memberEntries.contents (start + 1 + byteLength gap) members)) := by
  rw [node, memberNodes_eq]

/-! ### What is true of all parts -/

section Each
variable {number : NumberLiteral → Prop} {string between : List Char → Prop}

theorem eachItem_iff (items : List (Pad × Form)) : EachItem number string between items ↔
    ∀ i ∈ items, (between i.1.before ∧ between i.1.after) ∧ i.2.Each number string between := by
  induction items with
  | nil => simp [EachItem]
  | cons i items ih => simp [EachItem, ih, and_assoc]

theorem eachMember_iff (members : List (Label × Form)) : EachMember number string between members ↔
    ∀ m ∈ members, (between m.1.outer.before ∧ between m.1.outer.after) ∧ string m.1.raw ∧
      (between m.1.colon.before ∧ between m.1.colon.after) ∧ m.2.Each number string between := by
  induction members with
  | nil => simp [EachMember]
  | cons m members ih => simp [EachMember, ih, and_assoc]

/-- Properties of all parts can be weakened. -/
theorem Each.imp {number' : NumberLiteral → Prop} {string' between' : List Char → Prop} {f : Form}
    (hnumber : ∀ l, number l → number' l) (hstring : ∀ raw, string raw → string' raw)
    (hbetween : ∀ cs, between cs → between' cs) (h : f.Each number string between) :
    f.Each number' string' between' := by
  induction f using Form.induction with
  | literal l =>
    cases l with
    | null => exact trivial
    | boolean b => exact trivial
    | number l => exact hnumber l h
    | string raw => exact hstring raw h
  | array gap items ih =>
    obtain ⟨hg, hi⟩ := h
    rw [eachItem_iff] at hi
    refine ⟨hbetween gap hg, (eachItem_iff items).mpr fun i hmem => ?_⟩
    obtain ⟨⟨hb, ha⟩, hf⟩ := hi i hmem
    exact ⟨⟨hbetween _ hb, hbetween _ ha⟩, ih i hmem hf⟩
  | object gap members ih =>
    obtain ⟨hg, hm⟩ := h
    rw [eachMember_iff] at hm
    refine ⟨hbetween gap hg, (eachMember_iff members).mpr fun m hmem => ?_⟩
    obtain ⟨⟨ho, ho₂⟩, hs, ⟨hc, hc₂⟩, hf⟩ := hm m hmem
    exact ⟨⟨hbetween _ ho, hbetween _ ho₂⟩, hstring _ hs, ⟨hbetween _ hc, hbetween _ hc₂⟩, ih m hmem hf⟩

/-- Properties of all parts hold together if each of them holds. -/
theorem Each.and {number' : NumberLiteral → Prop} {string' between' : List Char → Prop} {f : Form}
    (h : f.Each number string between) (h' : f.Each number' string' between') :
    f.Each (fun l => number l ∧ number' l) (fun raw => string raw ∧ string' raw)
      (fun cs => between cs ∧ between' cs) := by
  induction f using Form.induction with
  | literal l =>
    cases l with
    | null => exact trivial
    | boolean b => exact trivial
    | number l => exact ⟨h, h'⟩
    | string raw => exact ⟨h, h'⟩
  | array gap items ih =>
    obtain ⟨hg, hi⟩ := h
    obtain ⟨hg', hi'⟩ := h'
    rw [eachItem_iff] at hi hi'
    refine ⟨⟨hg, hg'⟩, (eachItem_iff items).mpr fun i hmem => ?_⟩
    obtain ⟨⟨hb, ha⟩, hf⟩ := hi i hmem
    obtain ⟨⟨hb', ha'⟩, hf'⟩ := hi' i hmem
    exact ⟨⟨⟨hb, hb'⟩, ha, ha'⟩, ih i hmem hf hf'⟩
  | object gap members ih =>
    obtain ⟨hg, hm⟩ := h
    obtain ⟨hg', hm'⟩ := h'
    rw [eachMember_iff] at hm hm'
    refine ⟨⟨hg, hg'⟩, (eachMember_iff members).mpr fun m hmem => ?_⟩
    obtain ⟨⟨ho, ho₂⟩, hs, ⟨hc, hc₂⟩, hf⟩ := hm m hmem
    obtain ⟨⟨ho', ho₂'⟩, hs', ⟨hc', hc₂'⟩, hf'⟩ := hm' m hmem
    exact ⟨⟨⟨ho, ho'⟩, ho₂, ho₂'⟩, ⟨hs, hs'⟩, ⟨⟨hc, hc'⟩, hc₂, hc₂'⟩, ih m hmem hf hf'⟩

end Each

theorem grammatical_array {gap : List Char} {items : List (Pad × Form)} :
    (array gap items).Grammatical ↔ Blanks gap ∧
      ∀ i ∈ items, (Blanks i.1.before ∧ Blanks i.1.after) ∧ i.2.Grammatical := by
  rw [Grammatical, Each, eachItem_iff]
  exact Iff.rfl

theorem grammatical_object {gap : List Char} {members : List (Label × Form)} :
    (object gap members).Grammatical ↔ Blanks gap ∧
      ∀ m ∈ members, (Blanks m.1.outer.before ∧ Blanks m.1.outer.after) ∧ Contents m.1.raw ∧
        (Blanks m.1.colon.before ∧ Blanks m.1.colon.after) ∧ m.2.Grammatical := by
  rw [Grammatical, Each, eachMember_iff]
  exact Iff.rfl

/-- What is said of the tokens only, and not of what stands between them, is said of each item. -/
theorem eachToken_array {number : NumberLiteral → Prop} {string : List Char → Prop} {gap : List Char}
    {items : List (Pad × Form)} : (array gap items).Each number string (fun _ => True) ↔
      ∀ i ∈ items, i.2.Each number string fun _ => True := by
  rw [Each, eachItem_iff]
  simp only [and_self, true_and]

theorem eachToken_object {number : NumberLiteral → Prop} {string : List Char → Prop} {gap : List Char}
    {members : List (Label × Form)} : (object gap members).Each number string (fun _ => True) ↔
      ∀ m ∈ members, string m.1.raw ∧ m.2.Each number string fun _ => True := by
  rw [Each, eachMember_iff]
  simp only [and_self, true_and]

theorem accepted_array {gap : List Char} {items : List (Pad × Form)} :
    (array gap items).Accepted ↔ ∀ i ∈ items, i.2.Accepted := eachToken_array

theorem accepted_object {gap : List Char} {members : List (Label × Form)} :
    (object gap members).Accepted ↔
      ∀ m ∈ members, (∃ cs, meaning m.1.raw = .ok cs) ∧ m.2.Accepted := eachToken_object

theorem itemDepth_eq (items : List (Pad × Form)) :
    itemDepth items = (items.map (·.2.depth)).foldr max 0 := by
  induction items with
  | nil => rfl
  | cons i items ih => rw [itemDepth, ih]; rfl

theorem memberDepth_eq (members : List (Label × Form)) :
    memberDepth members = (members.map (·.2.depth)).foldr max 0 := by
  induction members with
  | nil => rfl
  | cons m members ih => rw [memberDepth, ih]; rfl

theorem foldr_max_le {α : Type} {g : α → Nat} {xs : List α} {n : Nat} :
    (xs.map g).foldr max 0 ≤ n ↔ ∀ x ∈ xs, g x ≤ n := by
  induction xs with
  | nil => simp
  | cons x xs ih => rw [List.map_cons, List.foldr_cons, Nat.max_le, ih, List.forall_mem_cons]

theorem depth_array {gap : List Char} {items : List (Pad × Form)} {n : Nat} :
    (array gap items).depth ≤ n + 1 ↔ ∀ i ∈ items, i.2.depth ≤ n := by
  rw [depth, Nat.add_le_add_iff_right, itemDepth_eq, foldr_max_le]

theorem depth_object {gap : List Char} {members : List (Label × Form)} {n : Nat} :
    (object gap members).depth ≤ n + 1 ↔ ∀ m ∈ members, m.2.depth ≤ n := by
  rw [depth, Nat.add_le_add_iff_right, memberDepth_eq, foldr_max_le]

end Form

end JsonSelect.Written
