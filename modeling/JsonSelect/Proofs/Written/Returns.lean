import JsonSelect.Proofs.Text.Returns
import JsonSelect.Proofs.Tree.Slices
import JsonSelect.Proofs.Written.Tokens

/-! # Forms with carriage returns

Tokens hold no line feeds, so the text of a form with returns is the text of a form with the same tokens:
the one whose blanks have returns (`Form.chars_mapBlanks`). Its node is the node of the form, with each span
where its bytes moved to (`Form.node_mapBlanks`). -/

namespace JsonSelect

open Reading Text

/-- The span in the text with returns of what stands in the span of the text. -/
def Span.moved (source : List Char) (s : Span) : Span := ⟨Text.moved source s.start, Text.moved source s.stop⟩

theorem Span.moved_eq {source before cs after : List Char} (hs : source = before ++ cs ++ after) :
    Span.moved source ⟨byteLength before, byteLength before + byteLength cs⟩ =
      ⟨byteLength (withReturns before),
        byteLength (withReturns before) + byteLength (withReturns cs)⟩ := by
  have hstop : Text.moved (before ++ cs ++ after) (byteLength (before ++ cs)) =
      byteLength (withReturns (before ++ cs)) := moved_byteLength _ _
  rw [byteLength_append, withReturns_append, byteLength_append] at hstop
  rw [hs, Span.moved, hstop, List.append_assoc, moved_byteLength]

namespace Written

/-! ### Changing blanks -/

section
variable (φ : List Char → List Char)

/-- A pad with its blanks changed by `φ`. -/
def Pad.mapBlanks (p : Pad) : Pad := ⟨φ p.before, φ p.after⟩

/-- A label with its blanks changed by `φ`. -/
def Label.mapBlanks (l : Label) : Label := ⟨l.outer.mapBlanks φ, l.raw, l.colon.mapBlanks φ⟩

namespace Form

mutual

/-- A form with all blanks in it changed by `φ`. -/
def mapBlanks : Form → Form
  | .literal l => .literal l
  | .array gap items => .array (φ gap) (mapItemBlanks items)
  | .object gap members => .object (φ gap) (mapMemberBlanks members)

/-- The items of an array with changed blanks. -/
def mapItemBlanks : List (Pad × Form) → List (Pad × Form)
  | [] => []
  | (pad, f) :: items => (pad.mapBlanks φ, f.mapBlanks) :: mapItemBlanks items

/-- The members of an object with changed blanks. -/
def mapMemberBlanks : List (Label × Form) → List (Label × Form)
  | [] => []
  | (label, f) :: members => (label.mapBlanks φ, f.mapBlanks) :: mapMemberBlanks members

end

theorem mapItemBlanks_eq (items : List (Pad × Form)) :
    mapItemBlanks φ items = items.map fun i => (i.1.mapBlanks φ, i.2.mapBlanks φ) := by
  induction items with
  | nil => rfl
  | cons i items ih => rw [mapItemBlanks, ih, List.map_cons]

theorem mapMemberBlanks_eq (members : List (Label × Form)) :
    mapMemberBlanks φ members = members.map fun m => (m.1.mapBlanks φ, m.2.mapBlanks φ) := by
  induction members with
  | nil => rfl
  | cons m members ih => rw [mapMemberBlanks, ih, List.map_cons]

end Form

end

namespace Form

variable {φ : List Char → List Char} {f : Form}

/-- The tokens stay, and what is true of the blanks is true of what they become. -/
theorem each_mapBlanks {number : NumberLiteral → Prop} {string between : List Char → Prop} :
    (f.mapBlanks φ).Each number string between ↔ f.Each number string fun cs => between (φ cs) := by
  induction f using Form.induction with
  | literal l => cases l <;> exact Iff.rfl
  | array gap items ih =>
    rw [mapBlanks, Each, Each, eachItem_iff, eachItem_iff, mapItemBlanks_eq, List.forall_mem_map]
    exact and_congr Iff.rfl (forall₂_congr fun i hi => and_congr Iff.rfl (ih i hi))
  | object gap members ih =>
    rw [mapBlanks, Each, Each, eachMember_iff, eachMember_iff, mapMemberBlanks_eq, List.forall_mem_map]
    exact and_congr Iff.rfl (forall₂_congr fun m hm =>
      and_congr Iff.rfl (and_congr Iff.rfl (and_congr Iff.rfl (ih m hm))))

theorem depth_mapBlanks (φ : List Char → List Char) (f : Form) : (f.mapBlanks φ).depth = f.depth := by
  induction f using Form.induction with
  | literal l => rfl
  | array gap items ih =>
    rw [mapBlanks, depth, depth, itemDepth_eq, itemDepth_eq, mapItemBlanks_eq, List.map_map]
    exact congrArg (fun ds : List Nat => ds.foldr max 0 + 1) (List.map_congr_left ih)
  | object gap members ih =>
    rw [mapBlanks, depth, depth, memberDepth_eq, memberDepth_eq, mapMemberBlanks_eq, List.map_map]
    exact congrArg (fun ds : List Nat => ds.foldr max 0 + 1) (List.map_congr_left ih)

theorem Grammatical.mapBlanks (hφ : ∀ cs, Blanks cs → Blanks (φ cs)) (h : f.Grammatical) :
    (f.mapBlanks φ).Grammatical :=
  each_mapBlanks.mpr (h.imp (fun _ => id) (fun _ => id) hφ)

theorem Accepted.mapBlanks (h : f.Accepted) : (f.mapBlanks φ).Accepted :=
  each_mapBlanks.mpr h

end Form

theorem blanks_withReturns {cs : List Char} (h : Blanks cs) : Blanks (withReturns cs) := by
  intro c hc
  obtain ⟨d, hd, hc⟩ := List.mem_flatMap.mp hc
  by_cases hn : d = '\n'
  · rw [if_pos hn] at hc
    have hall : ['\r', '\n'].all isBlank = true := by decide
    exact List.all_eq_true.mp hall c hc
  · rw [if_neg hn, List.mem_singleton] at hc
    rw [hc]
    exact h d hd

/-! ### Texts -/

theorem withReturns_of_printable {cs : List Char} (h : Printable cs) : withReturns cs = cs :=
  withReturns_of_notMem (h.notMem (by decide))

theorem withReturns_brackets {l r : Char} (hl : l ≠ '\n') (hr : r ≠ '\n') (gap texts : List Char) :
    withReturns (l :: (gap ++ texts ++ [r])) = l :: (withReturns gap ++ withReturns texts ++ [r]) := by
  rw [withReturns_cons hl, withReturns_append, withReturns_append, withReturns_cons hr, withReturns_nil]

namespace Entries

variable {β α : Type}

/-- The entry that `ρ` gives is written as the entry is, with returns. -/
structure Returned (e : Entries β α) (ρ : β → β) (b : β) : Prop where
  lead : e.lead (ρ b) = withReturns (e.lead b)
  body : e.body (ρ b) = withReturns (e.body b)

variable {e : Entries β α} {ρ : β → β} {b : β} {bs : List β}

theorem Returned.text (h : e.Returned ρ b) : e.text (ρ b) = withReturns (e.text b) := by
  rw [Entries.text, Entries.text, h.lead, h.body, withReturns_append]

theorem texts_returned (h : ∀ b ∈ bs, e.Returned ρ b) : e.texts (bs.map ρ) = withReturns (e.texts bs) := by
  induction bs with
  | nil => rfl
  | cons b bs ih =>
    obtain ⟨hb, hbs⟩ := List.forall_mem_cons.mp h
    rw [List.map_cons, texts_cons, texts_cons, withReturns_append, hb.text]
    cases bs with
    | nil => rfl
    | cons b' bs =>
      have hcomma : ',' ≠ '\n' := by decide
      rw [further_of_ne_nil e (List.cons_ne_nil b' bs), withReturns_cons hcomma, ← ih hbs, List.map_cons,
        further_of_ne_nil e (List.cons_ne_nil _ _)]

end Entries

theorem Label.front_mapBlanks {l : Label} (h : Printable l.raw) :
    (l.mapBlanks withReturns).front = withReturns l.front := by
  have hcolon : withReturns [':'] = [':'] := rfl
  have hkey : (l.mapBlanks withReturns).raw = l.raw := rfl
  rw [front, front, withReturns_append, hkey, withReturns_of_printable (printable_enclosed h)]
  simp only [mapBlanks, Pad.mapBlanks, Pad.around, withReturns_append, hcolon]

theorem returned_item {i : Pad × Form}
    (h : (i.2.mapBlanks withReturns).chars = withReturns i.2.chars) : itemEntries.Returned
      (fun i : Pad × Form => (i.1.mapBlanks withReturns, i.2.mapBlanks withReturns)) i where
  lead := rfl
  body := by
    simp only [itemEntries, Pad.mapBlanks, withReturns_append, h]

theorem returned_member {m : Label × Form} (hk : Printable m.1.raw)
    (h : (m.2.mapBlanks withReturns).chars = withReturns m.2.chars) : memberEntries.Returned
      (fun m : Label × Form => (m.1.mapBlanks withReturns, m.2.mapBlanks withReturns)) m where
  lead := rfl
  body := by
    simp only [memberEntries, Label.front_mapBlanks hk, withReturns_append, h]
    rfl

namespace Form

variable {f : Form} {source : List Char}

/-- **The text of a form with returns** is that of the form whose blanks have returns. -/
theorem chars_mapBlanks (h : f.PrintableTokens) :
    (f.mapBlanks withReturns).chars = withReturns f.chars := by
  induction f using Form.induction with
  | literal l => exact (withReturns_of_printable (Literal.printable h)).symm
  | array gap items ih =>
    have hi := printableTokens_array.mp h
    rw [mapBlanks, mapItemBlanks_eq, chars_array, chars_array, withReturns_brackets (by decide) (by decide),
      Entries.texts_returned fun i hmem => returned_item (ih i hmem (hi i hmem))]
  | object gap members ih =>
    have hm := printableTokens_object.mp h
    rw [mapBlanks, mapMemberBlanks_eq, chars_object, chars_object, withReturns_brackets (by decide) (by decide),
      Entries.texts_returned fun m hmem => returned_member (hm m hmem).1 (ih m hmem (hm m hmem).2)]

end Form

/-! ### Nodes -/

/-- The contents of entries in a text with returns, if that of each entry is what `ψ` gives. -/
theorem Entries.contents_returned {β α : Type} {e : Entries β α} {ρ : β → β} {ψ : α → α} {bs : List β}
    {source before after : List Char} (hr : ∀ b ∈ bs, e.Returned ρ b)
    (h : ∀ b ∈ bs, ∀ {before after}, source = before ++ e.body b ++ after →
      e.content (byteLength (withReturns before)) (ρ b) = ψ (e.content (byteLength before) b))
    (hs : source = before ++ e.texts bs ++ after) :
    e.contents (byteLength (withReturns before)) (bs.map ρ) =
      (e.contents (byteLength before) bs).map ψ := by
  induction bs generalizing before with
  | nil => rfl
  | cons b bs ih =>
    obtain ⟨hrb, hrbs⟩ := List.forall_mem_cons.mp hr
    obtain ⟨hb, hbs⟩ := List.forall_mem_cons.mp h
    rw [texts_cons] at hs
    -- the first body stands behind its lead
    have hhead : source = before ++ e.lead b ++ e.body b ++ (e.further bs ++ after) := by
      rw [hs, text]
      simp only [List.append_assoc]
    have hcontent := hb hhead
    rw [withReturns_append, byteLength_append, byteLength_append] at hcontent
    rw [List.map_cons, contents, contents, List.map_cons, hrb.lead, hcontent, hrb.text]
    cases bs with
    | nil => rfl
    | cons b' bs =>
      -- the other entries stand behind the first one and a comma, which gets no return
      have htail : source = before ++ e.text b ++ [','] ++ e.texts (b' :: bs) ++ after := by
        rw [hs, further_of_ne_nil e (List.cons_ne_nil b' bs)]
        simp only [List.append_assoc, List.cons_append, List.nil_append]
      have hcomma : byteLength [','] = 1 := rfl
      have hrest := ih hrbs hbs htail
      rw [withReturns_append, withReturns_append, byteLength_append, byteLength_append, byteLength_append,
        byteLength_append, hcomma] at hrest
      exact congrArg _ hrest

variable {source before after : List Char}

/-- Wherever the form stands in the source, its node with returns has the spans that its bytes moved to. -/
def Form.Moves (source : List Char) (f : Form) : Prop :=
  ∀ {before after : List Char}, source = before ++ f.chars ++ after →
    (f.mapBlanks withReturns).node (byteLength (withReturns before)) =
      (f.node (byteLength before)).mapSpans (Span.moved source)

theorem content_item {i : Pad × Form} (h : i.2.Moves source)
    (hs : source = before ++ itemEntries.body i ++ after) :
    (i.2.mapBlanks withReturns).node (byteLength (withReturns before)) =
      (i.2.node (byteLength before)).mapSpans (Span.moved source) := by
  have hitem : source = before ++ i.2.chars ++ (i.1.after ++ after) := by
    rw [hs]
    simp only [itemEntries, List.append_assoc]
  exact h hitem

theorem content_member {m : Label × Form} (hk : Printable m.1.raw) (h : m.2.Moves source)
    (hs : source = before ++ memberEntries.body m ++ after) :
    memberEntries.content (byteLength (withReturns before))
        (m.1.mapBlanks withReturns, m.2.mapBlanks withReturns) =
      (⟨m.1.name, Span.moved source ⟨byteLength before, byteLength before + byteLength (enclosed m.1.raw)⟩⟩,
        (m.2.node (byteLength before + byteLength m.1.front)).mapSpans (Span.moved source)) := by
  have hkey : source = before ++ enclosed m.1.raw ++
      (m.1.colon.around [':'] ++ m.2.chars ++ m.1.outer.after ++ after) := by
    rw [hs]
    simp only [memberEntries, Label.front, List.append_assoc]
  have hvalue : source = before ++ m.1.front ++ m.2.chars ++ (m.1.outer.after ++ after) := by
    rw [hs]
    simp only [memberEntries, List.append_assoc]
  have hnode := h hvalue
  rw [withReturns_append, byteLength_append, byteLength_append] at hnode
  rw [Span.moved_eq hkey, withReturns_of_printable (printable_enclosed hk), ← hnode, ← Label.front_mapBlanks hk]
  rfl

namespace Form

variable {f : Form}

/-- What stands between the brackets of a container stands behind the opening one and the gap. -/
theorem start_brackets {l r : Char} {gap texts : List Char} (hl : l ≠ '\n') (hsize : l.utf8Size = 1)
    (hs : source = before ++ l :: (gap ++ texts ++ [r]) ++ after) :
    source = before ++ l :: gap ++ texts ++ r :: after ∧
      byteLength (before ++ l :: gap) = byteLength before + 1 + byteLength gap ∧
        byteLength (withReturns (before ++ l :: gap)) =
          byteLength (withReturns before) + 1 + byteLength (withReturns gap) := by
  rw [withReturns_append, withReturns_cons hl]
  simp only [byteLength_append, byteLength_cons, hsize, Nat.add_assoc, and_self, and_true]
  rw [hs]
  simp only [List.append_assoc, List.cons_append, List.nil_append]

/-- **The node of a form with returns** is the node of the form, with each span where its bytes moved to. -/
theorem node_mapBlanks (h : f.PrintableTokens) : f.Moves source := by
  -- the source is that of the whole document throughout; only what stands around a part grows
  induction f using Form.induction with
  | literal l =>
    intro before after hs
    have hspan := Span.moved_eq (show source = before ++ l.chars ++ after from hs)
    rw [withReturns_of_printable (Literal.printable h)] at hspan
    rw [mapBlanks, node, node, Node.mapSpans, hspan]
  | array gap items ih =>
    intro before after hs
    have hi := printableTokens_array.mp h
    have hchars := chars_mapBlanks h
    have hspan := Span.moved_eq hs
    rw [chars_array] at hs
    obtain ⟨hs, hstart, hstart'⟩ := start_brackets (by decide) rfl hs
    have hitems := Entries.contents_returned (ψ := Node.mapSpans (Span.moved source))
      (fun i hmem => returned_item (chars_mapBlanks (hi i hmem)))
      (fun i hmem _ _ hs => content_item (ih i hmem (hi i hmem)) hs) hs
    rw [mapBlanks, mapItemBlanks_eq] at hchars ⊢
    rw [node_array, node_array, Node.mapSpans, Node.mapItemSpans_eq, hchars, hspan, ← hstart, ← hstart', hitems]
  | object gap members ih =>
    intro before after hs
    have hm := printableTokens_object.mp h
    have hchars := chars_mapBlanks h
    have hspan := Span.moved_eq hs
    rw [chars_object] at hs
    obtain ⟨hs, hstart, hstart'⟩ := start_brackets (by decide) rfl hs
    let ψ : Key × Node → Key × Node := fun m =>
      (⟨m.1.name, m.1.span.moved source⟩, m.2.mapSpans (Span.moved source))
    have hmembers := Entries.contents_returned (ψ := ψ)
      (fun m hmem => returned_member (hm m hmem).1 (chars_mapBlanks (hm m hmem).2))
      (fun m hmem _ _ hs => content_member (hm m hmem).1 (ih m hmem (hm m hmem).2) hs) hs
    have hcollapse := Members.collapse_map (φ := ψ) (fun _ => rfl)
    rw [mapBlanks, mapMemberBlanks_eq] at hchars ⊢
    rw [node_object, node_object, Node.mapSpans, Node.mapMemberSpans_eq, hchars, hspan, ← hstart, ← hstart',
      hmembers, hcollapse]

end Form

end Written

end JsonSelect
