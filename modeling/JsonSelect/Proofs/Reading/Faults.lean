import JsonSelect.Proofs.Reading.Recursion
import JsonSelect.Proofs.Reading.Viable

/-! # Where an error starts

The rules for arrays, objects and values keep the noted failure early, as the rules for tokens do: a part is
tried only where it can come next. What was read in front of it does not nest too deep, because the source was
not refused for its depth, and all brackets that it leaves open can be closed (`Form.Fits`). Between brackets
this is said once for all entries (`EarlyEntries.keeps_bracketed`).

So an error never starts beyond the first thing that is wrong in a source (`Document.viable_before_error`). -/

namespace JsonSelect

open Reading Rule Written Text

/-! ### Forms that fit -/

namespace Written.Form

/-- The form can stand in a document with `opened` containers around it. -/
structure Fits (opened : Nat) (f : Form) : Prop where
  grammatical : f.Grammatical
  legible : f.Legible
  depth : opened + f.depth ≤ maxDepth

/-- An item that can stand in an array of a document. -/
def ItemFits (opened : Nat) (i : Pad × Form) : Prop := (Blanks i.1.before ∧ Blanks i.1.after) ∧ i.2.Fits opened

/-- A member that can stand in an object of a document. -/
def MemberFits (opened : Nat) (m : Label × Form) : Prop :=
  (Blanks m.1.outer.before ∧ Blanks m.1.outer.after) ∧ (Contents m.1.raw ∧ ∃ cs, meaning m.1.raw = .ok cs) ∧
    (Blanks m.1.colon.before ∧ Blanks m.1.colon.after) ∧ m.2.Fits opened

variable {opened : Nat} {gap : List Char} {items : List (Pad × Form)} {members : List (Label × Form)}

theorem legible_of_accepted {f : Form} (h : f.Accepted) : f.Legible :=
  Each.imp (fun _ _ => trivial) (fun _ hs => hs) (fun _ hb => hb) h

theorem legible_array : (array gap items).Legible ↔ ∀ i ∈ items, i.2.Legible := eachToken_array

theorem legible_object : (object gap members).Legible ↔
    ∀ m ∈ members, (∃ cs, meaning m.1.raw = .ok cs) ∧ m.2.Legible := eachToken_object

theorem fits_literal {l : Literal} (hg : (literal l).Grammatical) (hl : (literal l).Legible)
    (ho : opened ≤ maxDepth) : (literal l).Fits opened :=
  ⟨hg, hl, ho⟩

theorem fits_array (ho : opened + 1 ≤ maxDepth) (hgap : Blanks gap) (h : ∀ i ∈ items, ItemFits (opened + 1) i) :
    (array gap items).Fits opened := by
  obtain ⟨m, hm⟩ := Nat.exists_eq_add_of_le ho
  refine ⟨grammatical_array.mpr ⟨hgap, fun i hi => ⟨(h i hi).1, (h i hi).2.grammatical⟩⟩,
    legible_array.mpr fun i hi => (h i hi).2.legible, ?_⟩
  have hdepth : (array gap items).depth ≤ m + 1 := depth_array.mpr fun i hi => by
    have := (h i hi).2.depth
    omega
  omega

theorem fits_object (ho : opened + 1 ≤ maxDepth) (hgap : Blanks gap)
    (h : ∀ m ∈ members, MemberFits (opened + 1) m) : (object gap members).Fits opened := by
  obtain ⟨n, hn⟩ := Nat.exists_eq_add_of_le ho
  refine ⟨grammatical_object.mpr ⟨hgap, fun m hm => ?_⟩, legible_object.mpr fun m hm => ?_, ?_⟩
  · obtain ⟨houter, hs, hcolon, hf⟩ := h m hm
    exact ⟨houter, hs.1, hcolon, hf.grammatical⟩
  · obtain ⟨-, hs, -, hf⟩ := h m hm
    exact ⟨hs.2, hf.legible⟩
  · have hdepth : (object gap members).depth ≤ n + 1 := depth_object.mpr fun m hm => by
      have := (h m hm).2.2.2.depth
      omega
    omega

end Written.Form

namespace Reading

open Form DepthScan

/-! ### Entries -/

section
variable {α β γ : Type} {source : List Char} {opened : Nat} {k k' : Cursor}

/-- A rule for entries that keeps the noted failure early: between brackets that leave `opened` containers
open, it is tried where the bodies of entries in the class `fine` can come next, and reads such bodies. -/
structure EarlyEntries (source : List Char) (opened : Nat) (item : Rule α) (e : Entries β α)
    (good fine : β → Prop) : Prop where
  reads : ReadsEntries item e good
  counted : ∀ {k b k'}, good b → Counted source opened k → k.Passes (e.body b) k' →
    Counted source opened k' ∧ fine b
  relead : ∀ {b lead}, fine b → Blanks lead → ∃ b', fine b' ∧ e.lead b' = lead ∧ e.body b' = e.body b
  keeps : ∀ {k}, Settled k → Counted source opened k →
    k.Admits source (fun cs => ∃ b, fine b ∧ e.body b = cs) → item.Keeps (Noted (Early source)) k

/-- What can come next behind an entry: more entries and the closing bracket. -/
structure BehindEntry (source : List Char) (opened : Nat) (e : Entries β α) (fine : β → Prop) (right : Char)
    (k : Cursor) : Prop where
  settled : Settled k
  counted : Counted source opened k
  admits : k.Admits source fun cs => ∃ bs, (∀ b ∈ bs, fine b) ∧ e.further bs ++ [right] = cs

namespace EarlyEntries

variable {item : Rule α} {e : Entries β α} {good fine : β → Prop} {right : Char}
  (h : EarlyEntries source opened item e good fine)
include h

/-- Behind a comma an entry can come next. -/
theorem keeps_next (hk : BehindEntry source opened e fine right k) :
    (do comma; item : Rule α).Keeps (Noted (Early source)) k := by
  have hclose := hk.admits.early_cell ⟨[], List.forall_mem_nil _, rfl⟩ k.offset
  have hblanks : blanks.Reads k () k := reads_blanks.mpr ⟨[], .refl k, blanks_nil, hk.settled⟩
  refine turns_bind (turns_padded hblanks (keeps_symbol (absorbs_noted _) hclose)) fun _ k₁ hcomma => ?_
  obtain ⟨lead, hlead, hp, hk₁⟩ := (reads_comma hk.settled).mp hcomma
  refine h.keeps hk₁ (hk.counted.symbol (by decide) hcomma) (hk.admits.behind hp fun ds hds => ?_)
  obtain ⟨b, hb, rfl⟩ := hds
  obtain ⟨b', hb', hl, hbody⟩ := h.relead hb hlead
  exact ⟨[right], [b'], List.forall_mem_singleton.mpr hb', by simp [e.further_cons, hl, hbody]⟩

/-- Behind the next entry there can be more. -/
theorem behind_next {k₁ k₂ : Cursor} {a : α} (hk : BehindEntry source opened e fine right k)
    (hcomma : comma.Reads k () k₁) (hi : item.Reads k₁ a k₂) : BehindEntry source opened e fine right k₂ := by
  obtain ⟨lead, hlead, h₁, hk₁⟩ := (reads_comma hk.settled).mp hcomma
  obtain ⟨b, hgood, hl, h₂, hk₂, -⟩ := h.reads.sound hk₁ hlead hi
  obtain ⟨hc, hb⟩ := h.counted hgood (hk.counted.symbol (by decide) hcomma) h₂
  refine ⟨hk₂, hc, hk.admits.behind (h₁.trans h₂) fun ds hds => ?_⟩
  obtain ⟨bs, hbs, rfl⟩ := hds
  exact ⟨[], b :: bs, List.forall_mem_cons.mpr ⟨hb, hbs⟩, by simp [e.further_cons, hl]⟩

theorem keeps_furtherItems (bound : List Char) (hk : BehindEntry source opened e fine right k) :
    (furtherItems item comma bound).Keeps (Noted (Early source)) k := by
  induction bound generalizing k with
  | nil =>
    have hclose := hk.admits.early_cell ⟨[], List.forall_mem_nil _, rfl⟩ k.offset
    have hblanks : blanks.Reads k () k := reads_blanks.mpr ⟨[], .refl k, blanks_nil, hk.settled⟩
    exact turns_bind (turns_optional (turns_padded hblanks (keeps_symbol (absorbs_noted _) hclose)))
      fun _ _ _ => keeps_pure
  | cons c bound ih =>
    refine turns_bind (turns_optional (h.keeps_next hk)) fun next k₂ hnext => ?_
    cases next with
    | none => exact keeps_pure
    | some a =>
      obtain ⟨b, -, hr⟩ | ⟨hb, -⟩ := reads_optional.mp hnext
      · obtain ⟨_, k₁, hcomma, hi⟩ := reads_bind.mp hr
        exact turns_bind (ih (h.behind_next hk hcomma hi)) fun _ _ _ => keeps_pure
      · cases hb

theorem behind_chain {as : List α} (hc : Chain item comma k as k')
    (hk : BehindEntry source opened e fine right k) : BehindEntry source opened e fine right k' := by
  induction hc with
  | stop => exact hk
  | more hs hi _ ih => exact ih (h.behind_next hk hs hi)

section
variable (hk : Settled k) (hc : Counted source opened k)
  (ha : k.Admits source fun cs => ∃ bs, (∀ b ∈ bs, fine b) ∧ e.texts bs ++ [right] = cs)
include hk hc ha

/-- Behind the first entry there can be more. -/
theorem behind_first {k₁ : Cursor} {a : α} (hi : item.Reads k a k₁) :
    BehindEntry source opened e fine right k₁ := by
  obtain ⟨b, hgood, hl, hp, hk₁, -⟩ := h.reads.sound hk blanks_nil hi
  obtain ⟨hc, hb⟩ := h.counted hgood hc hp
  refine ⟨hk₁, hc, ha.behind hp fun ds hds => ?_⟩
  obtain ⟨bs, hbs, rfl⟩ := hds
  exact ⟨[], b :: bs, List.forall_mem_cons.mpr ⟨hb, hbs⟩, by simp [e.texts_cons, Entries.text, hl]⟩

theorem keeps_separated : (separated item comma).Keeps (Noted (Early source)) k := by
  have hitem : item.Keeps (Noted (Early source)) k := h.keeps hk hc <| ha.begins fun ds hds => by
    obtain ⟨b, hb, rfl⟩ := hds
    obtain ⟨b', hb', hl, hbody⟩ := h.relead hb blanks_nil
    exact ⟨[right], [b'], List.forall_mem_singleton.mpr hb', by simp [e.texts_cons, Entries.text, hl, hbody]⟩
  refine turns_bind (turns_optional hitem) fun first k₁ hfirst => ?_
  cases first with
  | none => exact keeps_pure
  | some a =>
    obtain ⟨b, he, hi⟩ | ⟨he, -⟩ := reads_optional.mp hfirst
    · exact turns_bind (h.keeps_furtherItems k₁.ahead (h.behind_first hk hc ha hi)) fun _ _ _ => keeps_pure
    · cases he

/-- Behind the entries the closing bracket can come next. -/
theorem behind_separated {as : List α} (hr : (separated item comma).Reads k as k') :
    Settled k' ∧ k'.Admits source ([right] = ·) := by
  rcases (reads_separated h.reads.progress).mp hr with ⟨-, rfl, -⟩ | ⟨a, k₁, rest, -, hi, hchain⟩
  · exact ⟨hk, ha.mono fun ds hds => ⟨[], List.forall_mem_nil _, hds⟩⟩
  · have hk' := h.behind_chain hchain (h.behind_first hk hc ha hi)
    exact ⟨hk'.settled, hk'.admits.mono fun ds hds => ⟨[], List.forall_mem_nil _, hds⟩⟩

end

/-- **A container** keeps the noted failure early, whatever `inside` makes of its entries. -/
theorem keeps_bracketed {left : Char} {inside : Rule γ} {k₀ : Cursor}
    (hread : ∀ {k c k'}, inside.Reads k c k' → ∃ as, (separated item comma).Reads k as k')
    (hin : ∀ {J k}, (separated item comma).Keeps J k → inside.Keeps J k) (hopen : k.Passes [left] k₀)
    (hc : Counted source opened k₀) (ha : k.Admits source fun cs => ∃ gap bs, Blanks gap ∧ (∀ b ∈ bs, fine b) ∧
      left :: (gap ++ e.texts bs ++ [right]) = cs) :
    (bracketed left right inside).Keeps (Noted (Early source)) k := by
  have hleft := ha.early_cell ⟨[], [], blanks_nil, List.forall_mem_nil _, rfl⟩ k.offset
  -- behind the blanks in front of them the entries can come next
  have hinside : ∀ {gap k₁}, k₀.Passes gap k₁ → Blanks gap →
      k₁.Admits source fun cs => ∃ bs, (∀ b ∈ bs, fine b) ∧ e.texts bs ++ [right] = cs := fun hp hb =>
    ha.behind (hopen.trans hp) fun ds hds => by
      obtain ⟨bs, hbs, rfl⟩ := hds
      exact ⟨[], _, bs, hb, hbs, by simp⟩
  refine turns_bind (keeps_symbol (absorbs_noted _) hleft) fun _ k₀' h₀ => ?_
  obtain rfl := hopen.unique (reads_symbol.mp h₀)
  refine turns_bind (keeps_padded fun k₁ hb => hin ?_) fun c k₃ hpadded => ?_
  · obtain ⟨gap, hp, hgap, hk₁⟩ := reads_blanks.mp hb
    exact h.keeps_separated hk₁ (hc.blanks hb) (hinside hp hgap)
  · obtain ⟨gap, tail, k₁, k₂, ⟨hp, hgap, hk₁⟩, hi, htail, hblanks, -⟩ := reads_padded.mp hpadded
    obtain ⟨as, hs⟩ := hread hi
    have hc₁ : Counted source opened k₁ := hc.nests hp (nests_blanks hgap)
    obtain ⟨hk₂, hclose⟩ := h.behind_separated hk₁ hc₁ (hinside hp hgap) hs
    obtain ⟨-, rfl⟩ := hk₂.passes htail hblanks
    exact turns_bind (keeps_symbol (absorbs_noted _) (hclose.early_cell rfl _)) fun _ _ _ => keeps_pure

end EarlyEntries

end

/-! ### Values -/

/-- The text of a value that can stand with `opened` containers around it. -/
def ValueText (opened : Nat) (cs : List Char) : Prop := ∃ f : Form, f.Fits opened ∧ f.chars = cs

/-- The rule for values of `n` levels keeps the noted failure early where a value can come next, with `opened`
containers around it. -/
def EarlyValue (source : List Char) (opened n : Nat) : Prop := ∀ {k : Cursor}, Counted source opened k →
  (∀ k₁, blanks.Reads k () k₁ → k₁.Admits source (ValueText opened)) →
    (valueWithin n).Keeps (Noted (Early source)) k

section
variable {source : List Char} {opened n : Nat} {k k' : Cursor}

/-- A value can come next where no blank stands. -/
theorem EarlyValue.settled (hv : EarlyValue source opened n) (hk : Settled k) (hc : Counted source opened k)
    (ha : k.Admits source (ValueText opened)) : (valueWithin n).Keeps (Noted (Early source)) k :=
  hv hc fun k₁ h₁ => by
    rw [hk.eq_of_reads_blanks h₁]
    exact ha

/-- The key of a member, the colon with what is around it, and the value. -/
theorem exists_member {raw before after : List Char} {f : Form} (hraw : Contents raw)
    (hm : ∃ cs, meaning raw = .ok cs) (hb : Blanks before) (ha : Blanks after) (hf : f.Fits opened) :
    ∃ m, MemberFits opened m ∧
      memberEntries.body m = enclosed raw ++ (before ++ ':' :: (after ++ f.chars)) := by
  refine ⟨(⟨⟨[], []⟩, raw, ⟨before, after⟩⟩, f), ⟨⟨blanks_nil, blanks_nil⟩, ⟨hraw, hm⟩, ⟨hb, ha⟩, hf⟩, ?_⟩
  simp [memberEntries, Label.front, Pad.around]

variable (hs : tooDeepAt? source = none)
include hs

/-- What nests in a source that is not refused does not nest too deep. -/
theorem Counted.add_le {cs : List Char} {m : Nat} (hc : Counted source opened k) (hp : k.Passes cs k')
    (hn : Nests cs m) : opened + m ≤ maxDepth := by
  have hopened := hc.le_maxDepth hs
  obtain ⟨before, hb, hscan⟩ := hc
  have hsource : source = before ++ (cs ++ k'.ahead) := by
    rw [← hp.ahead]
    exact hb.ahead
  have hshallow := (tooDeepFrom?_eq_none 0).mp hs
  rw [hsource, shallow_append, hscan, shallow_append] at hshallow
  exact (hn.shallow opened hopened).mp hshallow.2.1

theorem Counted.fits {f : Form} (hc : Counted source opened k) (hf : Readable n f) (hp : k.Passes f.chars k') :
    f.Fits opened :=
  ⟨grammatical_of_readable hf, legible_of_accepted (accepted_of_readable hf),
    hc.add_le hs hp (nests_chars (grammatical_of_readable hf))⟩

theorem Counted.fits_null (hc : Counted source opened k) : (Form.literal .null).Fits opened :=
  fits_literal trivial trivial (hc.le_maxDepth hs)

theorem early_items (hv : EarlyValue source opened n) : EarlyEntries source opened (valueWithin n) itemEntries
    (fun i => (Blanks i.1.before ∧ Blanks i.1.after) ∧ Readable n i.2) (ItemFits opened) where
  reads := (reads_valueWithin n).items
  counted {k i k'} hi hc hp := by
    obtain ⟨hpad, hf⟩ := hi
    obtain ⟨k₁, h₁, h₂⟩ := Cursor.passes_append.mp hp
    have hc₁ := hc.nests h₁ (nests_chars (grammatical_of_readable hf))
    exact ⟨hc₁.nests h₂ (nests_blanks hpad.2), hpad, hc.fits hs hf h₁⟩
  relead {i lead} hi hlead := ⟨(⟨lead, i.1.after⟩, i.2), ⟨⟨hlead, hi.1.2⟩, hi.2⟩, rfl, rfl⟩
  keeps hk hc ha := hv.settled hk hc <| ha.begins fun ds hds => by
    obtain ⟨f, hf, rfl⟩ := hds
    exact ⟨[], (⟨[], []⟩, f), ⟨⟨blanks_nil, blanks_nil⟩, hf⟩, rfl⟩

/-- A member is tried at its key, so a key can come next, then a colon, then a value. -/
theorem keeps_member_of_admits (hv : EarlyValue source opened n) (hc : Counted source opened k)
    (ha : k.Admits source fun cs => ∃ m, MemberFits opened m ∧ memberEntries.body m = cs) :
    (member (valueWithin n)).Keeps (Noted (Early source)) k := by
  have hnull := hc.fits_null hs
  have hkey : k.Admits source StringText := ha.begins fun ds hds => by
    obtain ⟨raw, hraw, hm, rfl⟩ := hds
    exact ⟨_, exists_member hraw hm blanks_nil blanks_nil hnull⟩
  refine keeps_labelled (absorbs_noted _) ?_
  refine turns_bind (turns_spanned (keeps_stringLiteral_of_admits hkey)) fun ⟨span, name⟩ k₁ hstring => ?_
  have hstring := (reads_spanned.mp hstring).2
  obtain ⟨raw, hraw, hm, -, h₁⟩ := reads_stringLiteral.mp hstring
  refine turns_bind (keeps_padded fun k₂ hb => ?_) fun _ k₂ hcolon => ?_
  · obtain ⟨before, h₂, hb, -⟩ := reads_blanks.mp hb
    have htext := exists_member hraw hm hb blanks_nil hnull
    rw [← List.append_assoc] at htext
    exact keeps_symbol (absorbs_noted _) (ha.early (h₁.trans h₂) htext rfl)
  · obtain ⟨before, after, k₃, k₄, ⟨h₂, hb, -⟩, h₃, h₄, ha', hk₂⟩ := reads_padded.mp hcolon
    have hc₂ := (hc.string hstring).symbol (by decide) hcolon
    have hp := h₁.trans (h₂.trans ((reads_symbol.mp h₃).trans h₄))
    refine turns_bind (hv.settled hk₂ hc₂ (ha.behind hp fun ds hds => ?_)) fun _ _ _ => keeps_pure
    obtain ⟨f, hf, rfl⟩ := hds
    exact ⟨[], by simpa using exists_member hraw hm hb ha' hf⟩

theorem early_members (hv : EarlyValue source opened n) :
    EarlyEntries source opened (member (valueWithin n)) memberEntries
      (fun m => (Blanks m.1.outer.before ∧ Blanks m.1.outer.after) ∧
        (Contents m.1.raw ∧ ∃ cs, meaning m.1.raw = .ok cs) ∧
          (Blanks m.1.colon.before ∧ Blanks m.1.colon.after) ∧ Readable n m.2) (MemberFits opened) where
  reads := (reads_valueWithin n).members
  counted {k m k'} hm hc hp := by
    obtain ⟨houter, hraw, hcolon, hf⟩ := hm
    obtain ⟨k₂, h, h₃⟩ := Cursor.passes_append.mp hp
    obtain ⟨k₁, h₁, h₂⟩ := Cursor.passes_append.mp h
    have hc₁ := hc.nests h₁ (nests_front hraw.1 hcolon)
    have hc₂ := hc₁.nests h₂ (nests_chars (grammatical_of_readable hf))
    exact ⟨hc₂.nests h₃ (nests_blanks houter.2), houter, hraw, hcolon, hc₁.fits hs hf h₂⟩
  relead {m lead} hm hlead := by
    obtain ⟨houter, hrest⟩ := hm
    exact ⟨(⟨⟨lead, m.1.outer.after⟩, m.1.raw, m.1.colon⟩, m.2), ⟨⟨hlead, houter.2⟩, hrest⟩, rfl, rfl⟩
  keeps _ hc ha := keeps_member_of_admits hs hv hc ha

/-- A value that is tried where it can come next: each alternative is tried where its own texts can. -/
theorem keeps_spanless_of_admits (hv : EarlyValue source (opened + 1) n) (hc : Counted source opened k)
    (ha : k.Admits source (ValueText opened)) : (spanless (valueWithin n)).Keeps (Noted (Early source)) k := by
  have hopened := hc.le_maxDepth hs
  have hhere := ha.early_cell ⟨_, hc.fits_null hs, rfl⟩ k.offset
  -- behind a bracket that opens a container, the count is one more
  have hinner : ∀ {left : Char}, left = '[' ∨ left = '\x7b' → k.ahead.head? = some left →
      k.Passes [left] k.next ∧ Counted source (opened + 1) k.next := fun hl hhead => by
    refine ⟨passes_next hhead, hc.passes (passes_next hhead) ?_⟩
    rcases hl with rfl | rfl <;> rfl
  refine keeps_orElse (keeps_constant_of_admits (ha.mono fun ds hds => ?_)) fun _ => ?_
  · exact ⟨_, hc.fits_null hs, hds⟩
  refine keeps_orElse (keeps_constant_of_admits (ha.mono fun ds hds => ?_)) fun _ => ?_
  · exact ⟨.literal (.boolean true), fits_literal trivial trivial hopened, hds⟩
  refine keeps_orElse (keeps_constant_of_admits (ha.mono fun ds hds => ?_)) fun _ => ?_
  · exact ⟨.literal (.boolean false), fits_literal trivial trivial hopened, hds⟩
  refine keeps_orElse (turns_node (keeps_number_of_admits (ha.mono fun ds hds => ?_))) fun _ => ?_
  · obtain ⟨l, hl, rfl⟩ := hds
    exact ⟨.literal (.number l), fits_literal hl trivial hopened, rfl⟩
  refine keeps_orElse (turns_node (keeps_stringLiteral_of_admits (ha.mono fun ds hds => ?_))) fun _ => ?_
  · obtain ⟨raw, hraw, hm, rfl⟩ := hds
    exact ⟨.literal (.string raw), fits_literal hraw hm hopened, rfl⟩
  refine keeps_orElse (turns_node ?_) fun _ => turns_node ?_
  · by_cases hhead : k.ahead.head? = some '['
    · obtain ⟨hopen, hc₁⟩ := hinner (.inl rfl) hhead
      refine keeps_labelled (absorbs_noted _) ?_
      refine (early_items hs hv).keeps_bracketed (fun hr => ⟨_, hr⟩) id hopen hc₁ (ha.mono fun ds hds => ?_)
      obtain ⟨gap, items, hgap, hitems, rfl⟩ := hds
      exact ⟨_, fits_array (hc₁.le_maxDepth hs) hgap hitems, chars_array gap items⟩
    · exact (declines_array hhead).keeps (absorbs_noted _) hhere
  · by_cases hhead : k.ahead.head? = some '\x7b'
    · obtain ⟨hopen, hc₁⟩ := hinner (.inr rfl) hhead
      refine keeps_labelled (absorbs_noted _) ?_
      refine (early_members hs hv).keeps_bracketed (fun hr => ?_) turns_members hopen hc₁
        (ha.mono fun ds hds => ?_)
      · obtain ⟨all, hall, -⟩ := reads_members.mp hr
        exact ⟨all, hall⟩
      · obtain ⟨gap, members, hgap, hmembers, rfl⟩ := hds
        exact ⟨_, fits_object (hc₁.le_maxDepth hs) hgap hmembers, chars_object gap members⟩
    · exact (declines_object hhead).keeps (absorbs_noted _) hhere

/-- **A value** that is tried where it can come next keeps the noted failure early. -/
theorem early_valueWithin (n opened : Nat) : EarlyValue source opened n := by
  induction n generalizing opened with
  | zero => exact fun _ _ _ hn => hn
  | succ n ih =>
    intro k hc ha
    exact keeps_padded fun k₁ h₁ => turns_bind
      (turns_spanned (keeps_spanless_of_admits hs (ih (opened + 1)) (hc.blanks h₁) (ha k₁ h₁)))
      fun _ _ _ => keeps_pure

end

/-! ### Documents -/

theorem viable_of_fits {before after : List Char} {f : Form} (hb : Blanks before) (ha : Blanks after)
    (hf : f.Fits 0) : Viable (before ++ f.chars ++ after) := by
  have hdepth := hf.depth
  rw [Nat.zero_add] at hdepth
  refine ⟨[], ⟨before, after⟩, f, ⟨?_, hb, ha, hf.grammatical⟩, hdepth, hf.legible⟩
  rw [List.append_nil, Pad.around]

/-- Behind a value the source is a document already. -/
theorem keeps_documentWithin {source : List Char} (hs : tooDeepAt? source = none) (n : Nat) :
    (documentWithin n).Keeps (Noted (Early source)) (Cursor.start source) := by
  have hc := counted_start source
  refine keeps_labelled (absorbs_noted _) ?_
  refine turns_bind (early_valueWithin hs n 0 hc fun k₁ h₁ => ?_) fun node k' hr => ?_
  · obtain ⟨before, hp, hb, -⟩ := reads_blanks.mp h₁
    refine ⟨before, hp, fun ds hds => ?_⟩
    obtain ⟨f, hf, rfl⟩ := hds
    exact (viable_of_fits hb blanks_nil hf).of_append
  · obtain ⟨pad, f, hpad, hf, hp, -⟩ := (reads_valueWithin n).sound hr
    obtain ⟨k₂, h, -⟩ := Cursor.passes_append.mp hp
    obtain ⟨k₁, h₁, h₂⟩ := Cursor.passes_append.mp h
    have hfits := (hc.nests h₁ (nests_blanks hpad.1)).fits hs hf h₂
    have hviable : Viable (pad.around f.chars) := viable_of_fits hpad.1 hpad.2 hfits
    have hearly : Early source k'.offset k'.cell := ⟨_, k', hp, hviable, rfl⟩
    exact turns_bind (keeps_endOfInput (absorbs_noted _) hearly) fun _ _ _ => keeps_pure

end Reading

namespace Document

theorem early_failure {source : String} (hs : tooDeepAt? source.toList = none) :
    Noted (Early source.toList) (some (failure source)) := by
  have hnoted : Noted (Early source.toList) (notes source).failure :=
    keeps_documentWithin hs levels Notes.none (noted_none _)
  intro f hf
  obtain rfl := Option.some.inj hf
  rw [failure]
  cases hn : (notes source).failure with
  | none =>
    have hnull : (Form.literal .null).Fits 0 := (counted_start source.toList).fits_null hs
    have hviable := viable_of_fits blanks_nil blanks_nil hnull
    exact ⟨[], Cursor.start source.toList, .refl _, hviable.of_append.of_append, rfl⟩
  | some f => exact hnoted f hn

/-- **An error never starts beyond the first thing that is wrong.** What stands in front of the span of the parse
error, in a source that does not nest too deep, can be continued to a text of the grammar of documents, of which
only the numbers may denote nothing. -/
theorem viable_before_error {source : String} {errors : List ParseError} (hs : tooDeepAt? source.toList = none)
    (h : parse source = .error errors) : ∃ e, errors = [e] ∧
      ∃ before rest after pad f, source.toList = before ++ rest ∧ e.span.start = byteLength before ∧
        Derives (before ++ after) pad f ∧ f.depth ≤ maxDepth ∧ f.Legible := by
  rcases parse_eq_error.mp h with ⟨offset, hd, -⟩ | ⟨-, -, rfl⟩
  · rw [hs] at hd
    cases hd
  · obtain ⟨before, k, hp, ⟨after, pad, f, hf⟩, hstart⟩ := early_failure hs _ rfl
    exact ⟨_, rfl, before, k.ahead, after, pad, f, hp.ahead,
      hstart.trans (hp.offset.trans (Nat.zero_add _)), hf⟩

/-- An exponent without digits. What is expected in the place of its sign is noted behind the character that
stands there, and shown in front of it. -/
theorem viable_before_error_exponent : tooDeepAt? "[1ex]".toList = none ∧ ∃ e, parse "[1ex]" = .error [e] ∧
    e = .ofFailure ⟨4, .unexpected [.symbol '+', .symbol '-'] (some 'x'), ⟨3, 4⟩⟩ ∧
    ∃ before rest after pad f, "[1ex]".toList = before ++ rest ∧ e.span.start = byteLength before ∧
      Derives (before ++ after) pad f ∧ f.depth ≤ maxDepth ∧ f.Legible := by
  have hs : tooDeepAt? "[1ex]".toList = none := by decide
  have hparse : parse "[1ex]" =
      .error [.ofFailure ⟨4, .unexpected [.symbol '+', .symbol '-'] (some 'x'), ⟨3, 4⟩⟩] := rfl
  obtain ⟨e, he, hviable⟩ := viable_before_error hs hparse
  obtain rfl := List.singleton_inj.mp he
  exact ⟨hs, _, hparse, rfl, hviable⟩

end Document

end JsonSelect
