import JsonSelect.Proofs.Document
import JsonSelect.Proofs.Written.Layout
import JsonSelect.Tree

/-! # Where units stand

The units of a document are the tokens of its layout, apart from the order: a key has the place of its first
member and the content of its last one (`aligned_units`). So units do not overlap, and what lies between
them are blanks, separators and overridden members (`units_tile_source`). Where no object repeats a key the
order is that of the source, too. -/

namespace JsonSelect

open Reading Written

/-! ### Rows that agree up to order -/

/-- Two rows have the same entries, and in the same order if `ordered` holds. -/
structure Aligned {α : Type} (ordered : Prop) (xs ys : List α) : Prop where
  perm : xs.Perm ys
  eq : ordered → xs = ys

namespace Aligned

variable {α : Type} {p q : Prop} {xs ys zs : List α}

theorem refl (p : Prop) (xs : List α) : Aligned p xs xs := ⟨.refl _, fun _ => rfl⟩

theorem trans (h : Aligned p xs ys) (h' : Aligned p ys zs) : Aligned p xs zs :=
  ⟨h.perm.trans h'.perm, fun hp => (h.eq hp).trans (h'.eq hp)⟩

theorem append {xs' ys' : List α} (h : Aligned p xs ys) (h' : Aligned p xs' ys') :
    Aligned p (xs ++ xs') (ys ++ ys') :=
  ⟨h.perm.append h'.perm, fun hp => by rw [h.eq hp, h'.eq hp]⟩

theorem imp (h : Aligned p xs ys) (hq : q → p) : Aligned q xs ys := ⟨h.perm, fun hp => h.eq (hq hp)⟩

end Aligned

/-! ### Units of members -/

theorem Members.lasts_of_nodup {ms : List (Key × Node)} (h : (names ms).Nodup) : lasts ms = ms := by
  induction ms with
  | nil => rfl
  | cons m ms ih =>
    obtain ⟨hm, hms⟩ := List.nodup_cons.mp h
    have hm : m.1.name ∉ names ms := hm
    rw [lasts, if_neg hm, ih hms]

/-- The spans of the units of members, one member after the other. -/
theorem Node.memberUnits_eq_flatMap (p : Path) (ms : List (Key × Node)) : memberUnits p ms =
    ms.flatMap fun m => ⟨.key, p.child m.1.name, m.1.span, m.2⟩ :: m.2.units (p.child m.1.name) := by
  induction ms with
  | nil => rfl
  | cons m ms ih => rw [memberUnits, ih, List.flatMap_cons, List.cons_append]

/-- The members that remain and the last members of each name have the same units. -/
theorem aligned_collapse (p : Path) (ms : List (Key × Node)) : Aligned (Members.names ms).Nodup
    (Node.memberUnits p (Members.collapse ms)) (Node.memberUnits p (Members.lasts ms)) := by
  refine ⟨?_, fun h => ?_⟩
  · rw [Node.memberUnits_eq_flatMap, Node.memberUnits_eq_flatMap]
    exact (Members.collapse_perm ms).flatMap_right _
  · rw [Members.collapse_of_nodup h, Members.lasts_of_nodup h]

namespace Written

/-! ### Forms without repeats -/

/-- No object in the form repeats a key. -/
inductive Form.Unrepeated : Form → Prop
  | literal (l : Literal) : Unrepeated (.literal l)
  | array (gap : List Char) {items : List (Pad × Form)} (h : ∀ i ∈ items, Unrepeated i.2) :
      Unrepeated (.array gap items)
  | object (gap : List Char) {members : List (Label × Form)}
      (hn : (members.map (·.1.name)).Nodup) (h : ∀ m ∈ members, Unrepeated m.2) :
      Unrepeated (.object gap members)

namespace Form

theorem Unrepeated.items {gap : List Char} {items : List (Pad × Form)}
    (h : Unrepeated (.array gap items)) : ∀ i ∈ items, i.2.Unrepeated := by
  cases h with
  | array _ h => exact h

theorem Unrepeated.members {gap : List Char} {members : List (Label × Form)}
    (h : Unrepeated (.object gap members)) :
    (members.map (·.1.name)).Nodup ∧ ∀ m ∈ members, m.2.Unrepeated := by
  cases h with
  | object _ hn h => exact ⟨hn, h⟩

/-! ### Units and tokens -/

theorem tokenSpans_pad (start : Nat) (p : Pad) (ss : List Stretch) :
    tokenSpans start (p.layout ss) = tokenSpans (start + byteLength p.before) ss := by
  have hblank : ∀ o, tokenSpans o [⟨.blank, p.after⟩] = [] := fun _ => rfl
  rw [Pad.layout, tokenSpans_of_ne (by simp), tokenSpans_append, hblank, List.append_nil]

theorem tokenSpans_commaSeparated (start : Nat) (row : List Stretch) (rows : List (List Stretch)) :
    tokenSpans start (commaSeparated (row :: rows)) = tokenSpans start row ++
      tokenSpans (start + byteLength (text row) + 1) (commaSeparated rows) := by
  cases rows with
  | nil => simp [commaSeparated, tokenSpans]
  | cons row' rows =>
    rw [commaSeparated_cons, tokenSpans_append, tokenSpans_of_ne (by decide)]
    rfl

/-- What stands between two brackets. -/
theorem tokenSpans_brackets {l r : Char} (hl : l.utf8Size = 1) (hr : r.utf8Size = 1) (start : Nat)
    (gap : List Char) (ss : List Stretch) :
    tokenSpans start (⟨.token, [l]⟩ :: ⟨.blank, gap⟩ :: (ss ++ [⟨.token, [r]⟩])) =
      ⟨start, start + 1⟩ :: (tokenSpans (start + 1 + byteLength gap) ss ++
        [⟨start + byteLength (l :: (gap ++ text ss ++ [r])) - 1,
          start + byteLength (l :: (gap ++ text ss ++ [r]))⟩]) := by
  have hstop : start + 1 + byteLength gap + byteLength (text ss) + 1 =
      start + byteLength (l :: (gap ++ text ss ++ [r])) := by
    simp only [byteLength_cons, byteLength_append, byteLength_nil, hl, hr]
    omega
  have hl' : byteLength [l] = 1 := by simp [hl]
  have hr' : byteLength [r] = 1 := by simp [hr]
  rw [tokenSpans, if_pos rfl, tokenSpans_of_ne (by simp), tokenSpans_append, ← hstop, hl']
  simp [tokenSpans, hr']

theorem names_memberNodes (start : Nat) (members : List (Label × Form)) :
    Members.names (memberNodes start members) = members.map (·.1.name) := by
  induction members generalizing start with
  | nil => rfl
  | cons m members ih => rw [memberNodes, Members.names_cons, ih, List.map_cons]

/-- The units of a form at an offset, and the tokens of its layout there. -/
def UnitsAligned (f : Form) : Prop := ∀ start p,
  Aligned f.Unrepeated (((f.node start).units p).map (·.span)) (tokenSpans start f.layout)

theorem aligned_items {items : List (Pad × Form)} (ih : ∀ i ∈ items, i.2.UnitsAligned) (p : Path) :
    ∀ index start, Aligned (∀ i ∈ items, i.2.Unrepeated)
      ((Node.itemUnits p index (itemNodes start items)).map (·.span))
      (tokenSpans start (commaSeparated (itemLayouts items))) := by
  induction items with
  | nil => exact fun _ _ => .refl _ _
  | cons i items ihs =>
    intro index start
    obtain ⟨hi, his⟩ := List.forall_mem_cons.mp ih
    rw [itemNodes, Node.itemUnits, List.map_append, itemLayouts, tokenSpans_commaSeparated,
      tokenSpans_pad, Pad.text_layout, text_layout]
    refine .append ?_ ?_
    · exact (hi _ _).imp fun h => h i (by simp)
    · exact (ihs his _ _).imp fun h => fun i hi => h i (by simp [hi])

theorem aligned_member {label : Label} {f : Form} (hf : f.UnitsAligned) (p : Path) (start : Nat) :
    Aligned f.Unrepeated
      (⟨start, start + byteLength (enclosed label.raw)⟩ ::
        ((f.node (start + byteLength label.front)).units p).map (·.span))
      (tokenSpans start (label.layout ++ f.layout)) := by
  have hcolon : ∀ o, tokenSpans o (label.colon.layout [⟨.separator, [':']⟩]) = [] := fun o => by
    rw [tokenSpans_pad]
    rfl
  rw [tokenSpans_append, Label.text_layout, Label.layout, tokenSpans, if_pos rfl, hcolon,
    List.append_nil]
  exact .append (.refl _ [_]) (hf _ _)

theorem aligned_members {members : List (Label × Form)} (ih : ∀ m ∈ members, m.2.UnitsAligned)
    (p : Path) : ∀ start, Aligned (∀ m ∈ members, m.2.Unrepeated)
      ((Node.memberUnits p (Members.lasts (memberNodes start members))).map (·.span))
      (tokenSpans start (commaSeparated (memberLayouts members))) := by
  induction members with
  | nil => exact fun _ => .refl _ _
  | cons m members ihs =>
    intro start
    obtain ⟨label, f⟩ := m
    obtain ⟨hm, hms⟩ := List.forall_mem_cons.mp ih
    have hrest := fun start => (ihs hms start).imp fun h : ∀ m ∈ (label, f) :: members,
      m.2.Unrepeated => fun m hm => h m (by simp [hm])
    rw [memberNodes, Members.lasts, names_memberNodes, memberLayouts, tokenSpans_commaSeparated,
      tokenSpans_pad, Pad.text_layout]
    by_cases hn : label.name ∈ members.map (·.1.name)
    · -- the whole member is overridden
      rw [if_pos hn, if_pos hn]
      have htext : text [⟨.overridden, label.front ++ f.chars⟩] = label.front ++ f.chars := by simp
      rw [htext]
      exact hrest _
    · rw [if_neg hn, if_neg hn, Node.memberUnits, text_append, Label.text_layout, text_layout,
        List.map_cons, List.map_append, ← List.cons_append]
      refine .append ?_ (hrest _)
      exact (aligned_member hm _ _).imp fun h => h (label, f) (by simp)

/-- **The units of a form** stand where the tokens of its layout stand. -/
theorem aligned_units (f : Form) : f.UnitsAligned := by
  induction f using Form.induction with
  | literal l => exact fun start p => .refl _ _
  | array gap items ih =>
    intro start p
    have htext : text (commaSeparated (itemLayouts items)) = commas (itemTexts items) := by
      have := text_layout (.array gap items)
      simpa [layout, chars] using this
    rw [node, Node.units, layout, tokenSpans_brackets rfl rfl, htext, chars]
    simp only [List.map_cons, List.map_append, List.map_nil, Node.openingSpan, Node.closingSpan]
    refine .append (.refl _ [_]) (.append ?_ (.refl _ _))
    exact (aligned_items ih p _ _).imp Unrepeated.items
  | object gap members ih =>
    intro start p
    have htext : text (commaSeparated (memberLayouts members)) = commas (memberTexts members) := by
      have := text_layout (.object gap members)
      simpa [layout, chars] using this
    rw [node, Node.units, layout, tokenSpans_brackets rfl rfl, htext, chars]
    simp only [List.map_cons, List.map_append, List.map_nil, Node.openingSpan, Node.closingSpan]
    refine .append (.refl _ [_]) (.append ?_ (.refl _ _))
    have hcollapse := aligned_collapse p (memberNodes (start + 1 + byteLength gap) members)
    rw [names_memberNodes] at hcollapse
    refine .trans ⟨hcollapse.perm.map _, fun h => ?_⟩
      ((aligned_members ih p _).imp fun h => h.members.2)
    rw [hcollapse.eq h.members.1]

end Form

end Written

/-! ### Finding units -/

/-- Two spans do not overlap. -/
def Span.Apart (a b : Span) : Prop := a.stop ≤ b.start ∨ b.stop ≤ a.start

theorem Span.Apart.symm {a b : Span} (h : a.Apart b) : b.Apart a := Or.symm h

theorem Span.Apart.not_covers {a b : Span} {offset : Nat} (h : a.Apart b) (ha : a.covers offset) :
    ¬ b.covers offset := by
  unfold Apart at h
  simp only [covers, Bool.and_eq_true, decide_eq_true_eq] at ha ⊢
  omega

namespace Tree

variable {t : Tree} {offset : Nat}

/-- The units of a tree do not overlap. -/
def Spread (t : Tree) : Prop := t.units.Pairwise fun u v => u.span.Apart v.span

theorem unit?_unique (h : t.Spread) {i j : Nat} {u v : TreeUnit} (hu : t.unit? i = some u)
    (hv : t.unit? j = some v) (hcu : u.span.covers offset) (hcv : v.span.covers offset) : i = j := by
  obtain ⟨hi, rfl⟩ := List.getElem?_eq_some_iff.mp hu
  obtain ⟨hj, rfl⟩ := List.getElem?_eq_some_iff.mp hv
  have hp := List.pairwise_iff_getElem.mp h
  rcases Nat.lt_trichotomy i j with hij | hij | hij
  · exact absurd hcv ((hp i j hi hj hij).not_covers hcu)
  · exact hij
  · exact absurd hcu ((hp j i hj hi hij).not_covers hcv)

theorem idAt?_eq_some (h : t.Spread) {i : Nat} :
    t.idAt? offset = some i ↔ ∃ u : TreeUnit, t.unit? i = some u ∧ u.span.covers offset := by
  unfold idAt?
  rw [List.findIdx?_eq_some_iff_getElem]
  constructor
  · rintro ⟨hi, hc, -⟩
    exact ⟨t.units[i], List.getElem?_eq_getElem hi, hc⟩
  · rintro ⟨u, hu, hc⟩
    obtain ⟨hi, he⟩ := List.getElem?_eq_some_iff.mp hu
    refine ⟨hi, by rwa [he], fun j hj hc' => ?_⟩
    have := unit?_unique h (List.getElem?_eq_getElem (Nat.lt_trans hj hi)) hu hc' hc
    omega

theorem unitAt?_eq_some (h : t.Spread) {u : TreeUnit} :
    t.unitAt? offset = some u ↔ u ∈ t.units ∧ u.span.covers offset := by
  unfold unitAt?
  constructor
  · intro hf
    exact ⟨List.mem_of_find?_eq_some hf, List.find?_some (p := fun u : TreeUnit => u.span.covers offset) hf⟩
  · rintro ⟨hu, hc⟩
    cases hf : t.units.find? (·.span.covers offset) with
    | none => exact absurd hc (by simpa using List.find?_eq_none.mp hf u hu)
    | some v =>
      have hcv := List.find?_some (p := fun u : TreeUnit => u.span.covers offset) hf
      obtain ⟨i, hi⟩ := List.mem_iff_getElem?.mp hu
      obtain ⟨j, hj⟩ := List.mem_iff_getElem?.mp (List.mem_of_find?_eq_some hf)
      obtain rfl := unit?_unique h hi hj hc hcv
      exact hj.symm.trans hi

end Tree

/-! ### Units of documents -/

namespace Document

variable {source : String} {pad : Pad} {f : Form}

/-- The stretches of a source are those of its form and the blanks around it. -/
theorem Derivation.text_layout (h : Derivation source pad f) :
    text (pad.layout f.layout) = source.toList := by
  rw [Pad.text_layout, f.text_layout, h.derives.source_eq]

theorem Derivation.fitting (h : Derivation source pad f) :
    ∀ s ∈ pad.layout f.layout, s.Fitting :=
  Pad.forall_layout h.derives.before h.derives.after (Form.fitting_layout h.derives.grammatical)

/-- The units of a document stand where the tokens of its layout stand. -/
theorem aligned_tree (pad : Pad) (f : Form) : Aligned f.Unrepeated
    ((f.node (byteLength pad.before)).tree.units.map (·.span)) (tokenSpans 0 (pad.layout f.layout)) := by
  rw [Form.tokenSpans_pad, Nat.zero_add]
  exact f.aligned_units _ _

theorem spread_tree (pad : Pad) (f : Form) : (f.node (byteLength pad.before)).tree.Spread := by
  have hp : (tokenSpans 0 (pad.layout f.layout)).Pairwise Span.Apart :=
    (pairwise_tokenSpans _ _).imp .inl
  have := ((aligned_tree pad f).perm.pairwise_iff Span.Apart.symm).mpr hp
  exact List.pairwise_map.mp this

/-- A byte is covered by a unit where a token stands. -/
theorem covers_iff (pad : Pad) (f : Form) (offset : Nat) :
    (∃ u ∈ (f.node (byteLength pad.before)).tree.units, u.span.covers offset) ↔
      regionAt offset (pad.layout f.layout) = some .token := by
  rw [← covers_tokenSpans_iff 0, Nat.zero_add]
  constructor
  · rintro ⟨u, hu, hc⟩
    exact ⟨u.span, (aligned_tree pad f).perm.mem_iff.mp (List.mem_map_of_mem hu), hc⟩
  · rintro ⟨span, hs, hc⟩
    obtain ⟨u, hu, rfl⟩ := List.mem_map.mp ((aligned_tree pad f).perm.mem_iff.mpr hs)
    exact ⟨u, hu, hc⟩

/-- A unit stands on a token of the layout. -/
theorem Derivation.exists_stretch (h : Derivation source pad f) {u : TreeUnit}
    (hu : u ∈ (f.node (byteLength pad.before)).tree.units) :
    ∃ before token after, source.toList = before ++ token ++ after ∧
      ⟨.token, token⟩ ∈ pad.layout f.layout ∧
        u.span = ⟨byteLength before, byteLength (before ++ token)⟩ := by
  have hs := (aligned_tree pad f).perm.mem_iff.mp (List.mem_map_of_mem hu)
  obtain ⟨before, ⟨_, token⟩, after, he, rfl, hspan⟩ := exists_of_mem_tokenSpans hs
  refine ⟨text before, token, text after, ?_, by simp [he], by simpa using hspan⟩
  rw [← h.text_layout, he, text_append, text_cons, List.append_assoc]

/-- A unit stands on a text of the source that is not empty. -/
theorem Derivation.exists_token (h : Derivation source pad f) {u : TreeUnit}
    (hu : u ∈ (f.node (byteLength pad.before)).tree.units) :
    ∃ before token after, source.toList = before ++ token ++ after ∧ token ≠ [] ∧
      u.span = ⟨byteLength before, byteLength (before ++ token)⟩ := by
  obtain ⟨before, token, after, he, hs, hspan⟩ := h.exists_stretch hu
  exact ⟨before, token, after, he, h.fitting _ hs, hspan⟩

/-- **The units of a document** stand on texts of the source that do not overlap and are not empty. In the
layout of each derivation of the source, the bytes that no unit covers are those of blanks between tokens,
of commas and colons, and of members whose names come again. The unit at an offset is the only one there.
If no object repeats a key, units stand in the order of their numbers. -/
theorem units_tile_source {d : Document} (h : parse source = .ok d) :
    (∀ u ∈ d.root.tree.units, ∃ before token after, source.toList = before ++ token ++ after ∧
      token ≠ [] ∧ u.span = ⟨byteLength before, byteLength (before ++ token)⟩) ∧
    (d.root.tree.units.Pairwise fun u v =>
      u.span.stop ≤ v.span.start ∨ v.span.stop ≤ u.span.start) ∧
    (∃ pad f, Derivation source pad f) ∧
    (∀ pad f, Derivation source pad f →
      text (pad.layout f.layout) = source.toList ∧
      (∀ s ∈ pad.layout f.layout, (s.region = .blank → Blanks s.chars) ∧
        (s.region = .separator → s.chars = [','] ∨ s.chars = [':'])) ∧
      (∀ offset < byteLength source.toList,
        (∀ u ∈ d.root.tree.units, ¬ u.span.covers offset) ↔
          ∃ r ∈ [Region.blank, .separator, .overridden],
            regionAt offset (pad.layout f.layout) = some r) ∧
      (f.Unrepeated → d.root.tree.units.Pairwise fun u v =>
        u.span.start < v.span.start ∧ u.span.stop ≤ v.span.start)) ∧
    (∀ offset i, d.root.tree.idAt? offset = some i ↔
      ∃ u, d.root.tree.unit? i = some u ∧ u.span.covers offset) ∧
    ∀ offset u, d.root.tree.unitAt? offset = some u ↔
      u ∈ d.root.tree.units ∧ u.span.covers offset := by
  obtain ⟨pad, f, hf, hd⟩ := parse_eq_ok.mp h
  have hroot : d.root = f.node (byteLength pad.before) := by rw [hd]
  have hspread : d.root.tree.Spread := hroot ▸ spread_tree pad f
  refine ⟨fun u hu => ?_, hspread, ⟨pad, f, hf⟩, fun pad f hf => ?_, fun _ _ => Tree.idAt?_eq_some hspread,
    fun _ _ => Tree.unitAt?_eq_some hspread⟩
  · rw [hroot] at hu
    exact hf.exists_token hu
  · have hroot := root_eq_of_parse h hf
    refine ⟨hf.text_layout, fun s hs => ?_, fun offset ho => ?_, fun hu => ?_⟩
    · have hfit := hf.fitting s hs
      unfold Stretch.Fitting at hfit
      refine ⟨fun hr => ?_, fun hr => ?_⟩
      · rwa [hr] at hfit
      · rwa [hr] at hfit
    · have hcovers := covers_iff pad f offset
      rw [← hroot] at hcovers
      rw [← hf.text_layout] at ho
      obtain ⟨r, hr⟩ := exists_regionAt ho
      have hnone : (∀ u ∈ d.root.tree.units, ¬ u.span.covers offset) ↔ r ≠ .token := by
        rw [hr] at hcovers
        simpa using not_congr hcovers
      rw [hnone, hr]
      cases r <;> simp
    · rw [hroot]
      have hp := pairwise_tokenSpans 0 (pad.layout f.layout)
      rw [← (aligned_tree pad f).eq hu] at hp
      refine (List.pairwise_map.mp hp).imp_of_mem fun {u v} hum _ huv => ⟨?_, huv⟩
      obtain ⟨before, token, after, -, ht, hspan⟩ := hf.exists_token hum
      have := byteLength_pos ht
      rw [hspan] at huv ⊢
      simp only [byteLength_append] at huv ⊢
      omega

theorem units_tile_repeated_key : ∃ d, parse "\x7b\"k\":null,\"k\":[]\x7d" = .ok d ∧
    ∀ u ∈ d.root.tree.units, ¬ u.span.covers 2 := by
  let label : Written.Label := ⟨⟨[], []⟩, ['k'], ⟨[], []⟩⟩
  let f : Form := .object [] [(label, .literal .null), (label, .array [] [])]
  have hc : Contents ['k'] := ⟨_, .plain (by decide) (by decide) .nil⟩
  have hg : f.Grammatical := by
    simp [f, label, Form.Grammatical, Form.Each, Form.EachMember, Form.EachItem, Blanks, hc]
  have ha : f.Accepted := by
    have hm : Text.meaning ['k'] = .ok ['k'] := Text.meaning_escaped ['k']
    simp [f, label, Form.Accepted, Form.Each, Form.EachMember, Form.EachItem, hm]
  have hf := derivation_chars hg ha (by decide)
  have hp := parse_eq_ok.mpr ⟨_, f, hf, rfl⟩
  -- the first member is overridden, and the byte stands in its key
  have hr : regionAt 2 (Pad.layout ⟨[], []⟩ f.layout) = some .overridden := by
    rw [Form.layout, Form.memberLayouts, if_pos (by simp [label])]
    rfl
  obtain ⟨-, -, -, htile, -⟩ := units_tile_source hp
  obtain ⟨-, -, hcover, -⟩ := htile _ f hf
  exact ⟨_, hp, (hcover 2 (by decide)).mpr ⟨.overridden, by simp, hr⟩⟩

end Document

end JsonSelect
