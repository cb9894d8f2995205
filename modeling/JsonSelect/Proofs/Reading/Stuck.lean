import JsonSelect.Proofs.Reading.Quiet
import JsonSelect.Proofs.Written.Standing

/-! # Readings that get stuck

A rule sticks at a failure when it misses and leaves that failure noted, whatever is noted before the
failure's place (`Sticks`). A literal that cannot be read makes everything around it stick: what is read in
front of it leaves nothing noted at the failure's place (`Quiet`), and all that is tried behind it, other
alternatives, a closing bracket, another item, declines in front of it (`Declines`). So a value sticks at the
failure of the literal that stands in it, however deep (`sticks_spanless_of_stands`). -/

namespace JsonSelect.Reading

open Rule Written Text

variable {α β γ : Type} {k k' : Cursor} {F : Failure}

namespace Rule

variable {r s : Rule α} {h : α → Rule β} {a : α}

/-- The rule misses and leaves the failure `F` noted. -/
structure Sticks (r : Rule α) (F : Failure) (k : Cursor) : Prop where
  misses : r.Misses k
  turns : r.Turns (Noted (Before F.place)) (Held F) k

/-! ### Combinations -/

theorem Sticks.bind (hr : r.Sticks F k) : (r >>= h).Sticks F k :=
  ⟨misses_bind.mpr (.inl hr.misses), turns_bind_of_misses hr.misses hr.turns⟩

theorem sticks_bind (hr : r.Reads k a k') (hk : r.Turns (Noted (Before F.place)) (Noted (Before F.place)) k)
    (hh : (h a).Sticks F k') : (r >>= h).Sticks F k :=
  ⟨misses_bind.mpr (.inr ⟨a, k', hr, hh.misses⟩), turns_bind_of_reads hr hk hh.turns⟩

theorem Sticks.orElse_left (hk : k.offset < F.place) (hr : r.Sticks F k) (hs : s.Declines k) :
    (r <|> s).Sticks F k :=
  ⟨misses_orElse.mpr ⟨hr.misses, hs.misses⟩,
    turns_orElse_of_misses hr.misses hr.turns (hs.keeps (absorbs_held F) hk)⟩

theorem Sticks.orElse_right (hk : k.offset < F.place) (hr : r.Declines k) (hs : s.Sticks F k) :
    (r <|> s).Sticks F k :=
  ⟨misses_orElse.mpr ⟨hr.misses, hs.misses⟩, turns_orElse_right hr (absorbs_noted _) hk hs.turns⟩

theorem Sticks.labelled {name : String} (hk : k.offset < F.place) (hr : r.Sticks F k) :
    (labelled name r).Sticks F k :=
  ⟨misses_labelled.mpr hr.misses, turns_labelled_held hk hr.turns⟩

theorem Sticks.spanned (hr : r.Sticks F k) : (spanned r).Sticks F k :=
  ⟨misses_spanned.mpr hr.misses, turns_spanned hr.turns⟩

theorem Sticks.padded (hb : blanks.Reads k () k') (hr : r.Sticks F k') : (padded r).Sticks F k :=
  sticks_bind hb keeps_blanks hr.bind

end Rule

/-! ### The alternatives of a value -/

section
variable {value : Rule Node} (hk : k.offset < F.place)
include hk

theorem sticks_behind_keywords {c : Char} {s : Rule (Span → Node)} (h : k.ahead.head? = some c)
    (hc : c ∉ "ntf".toList) (hs : s.Sticks F k) : (constant "null" .null <|>
      constant "true" (.boolean true) <|> constant "false" (.boolean false) <|> s).Sticks F k := by
  obtain ⟨h₁, h₂, h₃⟩ := declines_keywords h hc
  exact .orElse_right hk h₁ <| .orElse_right hk h₂ <| .orElse_right hk h₃ hs

theorem sticks_spanless_number {c : Char} (h : k.ahead.head? = some c) (hc : c = '-' ∨ c.isDigit = true)
    (hn : number.Sticks F k) : (spanless value).Sticks F k := by
  have hne : ∀ d, d ≠ '-' → d.isDigit = false → k.ahead.head? ≠ some d := by
    rintro d hd hd' e
    rw [h] at e
    cases e
    rcases hc with rfl | hc
    · exact hd rfl
    · rw [hc] at hd'
      cases hd'
  refine sticks_behind_keywords hk h (not_mem_of_startsNumber hc) <| .orElse_left hk hn.bind ?_
  exact (declines_stringLiteral (hne '"' (by decide) (by decide))).bind.orElse <|
    (declines_array (hne '[' (by decide) (by decide))).bind.orElse
      (declines_object (hne '\x7b' (by decide) (by decide))).bind

theorem sticks_spanless_string (h : k.ahead.head? = some '"') (hs : stringLiteral.Sticks F k) :
    (spanless value).Sticks F k := by
  refine sticks_behind_keywords hk h (by decide) <|
    .orElse_right hk (declines_number_of_head h (.inl rfl)).bind <| .orElse_left hk hs.bind ?_
  exact (declines_array (by rw [h]; decide)).bind.orElse (declines_object (by rw [h]; decide)).bind

theorem sticks_spanless_array (h : k.ahead.head? = some '[') (ha : (array value).Sticks F k) :
    (spanless value).Sticks F k := by
  have hstring : stringLiteral.Declines k := declines_stringLiteral (by rw [h]; decide)
  exact sticks_behind_keywords hk h (by decide) <|
    .orElse_right hk (declines_number_of_head h (.inr (.inl rfl))).bind <| .orElse_right hk hstring.bind <|
    .orElse_left hk ha.bind (declines_object (by rw [h]; decide)).bind

theorem sticks_spanless_object (h : k.ahead.head? = some '\x7b') (ho : (object value).Sticks F k) :
    (spanless value).Sticks F k := by
  have hstring : stringLiteral.Declines k := declines_stringLiteral (by rw [h]; decide)
  have harray : (array value).Declines k := declines_array (by rw [h]; decide)
  exact sticks_behind_keywords hk h (by decide) <|
    .orElse_right hk (declines_number_of_head h (.inr (.inr rfl))).bind <| .orElse_right hk hstring.bind <|
    .orElse_right hk harray.bind ho.bind

end

/-! ### Entries -/

/-- Behind an entry there is a comma, if another one follows. -/
theorem stops_of_passes_comma {e : Entries β α} {bs : List β} {lead : List Char}
    (h : k.Passes (e.further bs ++ ',' :: lead) k') : Stops k.ahead := by
  cases bs with
  | nil => exact stops_of_passes h (by decide)
  | cons b bs =>
    rw [e.further_cons] at h
    exact stops_of_passes h (by decide)

section
variable {item : Rule α} {e : Entries β α} {good : β → Prop} (h : ReadsEntries item e good)
  (hq : item.Quiet) {kt : Cursor} {lead : List Char} (hl : Blanks lead) (hkt : kt.Begins)
  (hi : item.Sticks F kt) (hF : kt.offset < F.place)
include h hq hl hkt hi hF

/-- Entries behind another one are read up to the comma in front of the one that sticks. -/
theorem row_of_front {bs : List β} (hbs : ∀ b ∈ bs, good b)
    (hp : k.Passes (e.further bs ++ ',' :: lead) kt) : ∃ as k',
      Row item comma (Noted (Before F.place)) (Held F) k as k' ∧ k'.ahead.head? = some ',' ∧
        k'.offset ≤ kt.offset := by
  induction bs generalizing k with
  | nil =>
    have hk := (stops_of_passes_comma hp).settled
    have hs : comma.Reads k () kt := (reads_comma hk).mpr ⟨lead, hl, hp, hkt.settled⟩
    have hnext : (do comma; item : Rule α).Sticks F k := sticks_bind hs (keeps_comma hk hs) hi
    exact ⟨[], k, .stop hnext.misses hnext.turns, by rw [hp.ahead]; rfl, hp.offset_le⟩
  | cons b bs ih =>
    obtain ⟨hg, hbs⟩ := List.forall_mem_cons.mp hbs
    have hk := (stops_of_passes_comma hp).settled
    rw [e.further_cons, ← List.cons_append, List.append_assoc, List.append_assoc] at hp
    obtain ⟨k₁, h₁, hp⟩ := Cursor.passes_append.mp hp
    obtain ⟨k₂, h₂, h₃⟩ := Cursor.passes_append.mp hp
    have hs : comma.Reads k () k₁ := (reads_comma hk).mpr ⟨_, h.lead hg, h₁, h.settled hg h₂⟩
    have hstops := stops_of_passes_comma h₃
    have hr := h.complete hg h₂ hstops
    have hlt : k₂.offset < F.place := Nat.lt_of_le_of_lt h₃.offset_le hF
    obtain ⟨as, k', hrow, hcomma, hle⟩ := ih hbs h₃
    exact ⟨_, k', .more hs hr (turns_bind_of_reads hs (keeps_comma hk hs) (hq.keeps hr hstops hlt)) hrow,
      hcomma, hle⟩

/-- The list of entries is read up to the one that sticks, behind the gap in front of the first one. -/
theorem reads_separated_of_front {gap : List Char} (hgap : Blanks gap) {bs : List β} (hbs : ∀ b ∈ bs, good b)
    (hp : k.Passes (gap ++ e.front bs ++ lead) kt) : ∃ k₁ as k₂, blanks.Reads k () k₁ ∧
      (separated item comma).Reads k₁ as k₂ ∧
      (separated item comma).Turns (Noted (Before F.place)) (Held F) k₁ ∧
      Settled k₂ ∧ (∀ c ∈ "]\x7d".toList, k₂.ahead.head? ≠ some c) ∧ k₂.offset ≤ kt.offset := by
  cases bs with
  | nil =>
    -- the entry that sticks is the first one, so the list is read as an empty one in front of it
    rw [Entries.front_nil, List.append_nil] at hp
    have hb : Blanks (gap ++ lead) := fun c hc => (List.mem_append.mp hc).elim (hgap c) (hl c)
    refine ⟨kt, [], kt, reads_blanks.mpr ⟨_, hp, hb, hkt.settled⟩, ?_, turns_separated_nil hi.misses hi.turns,
      hkt.settled, fun c hc => hkt.head_ne ?_, Nat.le_refl _⟩
    · exact (reads_separated h.progress).mpr (.inl ⟨rfl, rfl, hi.misses⟩)
    · have hclosing : "]\x7d".toList.any startsValue = false := by decide
      exact eq_false_of_any hclosing c hc
  | cons b bs =>
    obtain ⟨hg, hbs⟩ := List.forall_mem_cons.mp hbs
    have hp : k.Passes ((gap ++ e.lead b) ++ (e.body b ++ (e.further bs ++ ',' :: lead))) kt := by
      simpa [Entries.front_cons, Entries.text] using hp
    obtain ⟨k₁, h₁, hp⟩ := Cursor.passes_append.mp hp
    obtain ⟨k₂, h₂, h₃⟩ := Cursor.passes_append.mp hp
    have hb : Blanks (gap ++ e.lead b) := fun c hc => (List.mem_append.mp hc).elim (hgap c) (h.lead hg c)
    have hstops := stops_of_passes_comma h₃
    have hr := h.complete hg h₂ hstops
    have hlt : k₂.offset < F.place := Nat.lt_of_le_of_lt h₃.offset_le hF
    obtain ⟨as, k', hrow, hcomma, hle⟩ := row_of_front h hq hl hkt hi hF hbs h₃
    refine ⟨k₁, e.content k₁.offset b :: as, k', reads_blanks.mpr ⟨_, h₁, hb, h.settled hg h₂⟩, ?_,
      turns_separated_cons h.progress hr (hq.keeps hr hstops hlt) hrow, ?_, fun c hc => ?_, hle⟩
    · exact (reads_separated h.progress).mpr (.inr ⟨_, k₂, as, rfl, hr, hrow.chain⟩)
    · intro c hc
      rw [hcomma] at hc
      cases hc
      decide
    · rw [hcomma]
      rintro e
      cases e
      exact absurd hc (by decide)

/-- **A container** sticks where an entry does: no other entry and no closing bracket stands there. -/
theorem sticks_bracketed {left right : Char} (hright : right ∈ "]\x7d".toList) {inside : Rule γ}
    (hin : ∀ {k as k'}, (separated item comma).Reads k as k' →
      (separated item comma).Turns (Noted (Before F.place)) (Held F) k →
        ∃ c, inside.Reads k c k' ∧ inside.Turns (Noted (Before F.place)) (Held F) k)
    {gap : List Char} (hgap : Blanks gap) {bs : List β} (hbs : ∀ b ∈ bs, good b)
    (hp : k.Passes (left :: (gap ++ e.front bs ++ lead)) kt) :
    (bracketed left right inside).Sticks F k := by
  obtain ⟨k₀, h₀, hp⟩ := Cursor.passes_cons.mp hp
  obtain ⟨k₁, as, k₂, hb, hs, ht, hk₂, hne, hle⟩ := reads_separated_of_front h hq hl hkt hi hF hgap hbs hp
  obtain ⟨c, hread, hturn⟩ := hin hs ht
  obtain ⟨before, h₁, hblank, hk₁⟩ := reads_blanks.mp hb
  have hopen : (symbol left).Reads k () k₀ := reads_symbol.mpr h₀
  have hpadded : (padded inside).Reads k₀ c k₂ := reads_padded.mpr ⟨before, [], k₁, k₂, ⟨h₁, hblank, hk₁⟩, hread,
    .refl k₂, blanks_nil, hk₂⟩
  have hclose : (symbol right).Declines k₂ := declines_symbol (hne right hright)
  exact sticks_bind hopen (keeps_symbol_of_reads hopen)
    ⟨misses_bind.mpr (.inr ⟨c, k₂, hpadded, hclose.bind.misses⟩), turns_bind_of_reads hpadded
      (turns_padded hb hturn) (hclose.bind.keeps (absorbs_held F) (Nat.lt_of_le_of_lt hle hF))⟩

end

/-! ### Members and documents -/

section
variable {value : Rule Node} (hk : k.offset < F.place)
include hk

theorem sticks_member_key (hs : stringLiteral.Sticks F k) : (member value).Sticks F k :=
  hs.spanned.bind.labelled hk

theorem sticks_member_value {label : Written.Label} (hraw : Contents label.raw ∧ ∃ cs, meaning label.raw = .ok cs)
    (hcolon : Blanks label.colon.before ∧ Blanks label.colon.after) {kt : Cursor}
    (hp : k.Passes label.front kt) (hkt : kt.Begins) (hv : value.Sticks F kt) : (member value).Sticks F k := by
  have hp : k.Passes (enclosed label.raw ++ (label.colon.before ++ ([':'] ++ label.colon.after))) kt := by
    simpa [Written.Label.front, Pad.around] using hp
  obtain ⟨k₁, h₁, hp⟩ := Cursor.passes_append.mp hp
  obtain ⟨k₂, h₂, hp⟩ := Cursor.passes_append.mp hp
  obtain ⟨k₃, h₃, h₄⟩ := Cursor.passes_append.mp hp
  have hk₂ : Settled k₂ := by
    rw [Settled, h₃.ahead]
    exact startsOutside_cons.mpr (by decide)
  have hstring : stringLiteral.Reads k label.name k₁ := reads_stringLiteral.mpr ⟨_, hraw.1, hraw.2, rfl, h₁⟩
  have hsymbol : (symbol ':').Reads k₂ () k₃ := reads_symbol.mpr h₃
  have hkey : (spanned stringLiteral).Reads k (⟨k.offset, k₁.offset⟩, label.name) k₁ :=
    reads_spanned.mpr ⟨rfl, hstring⟩
  have hpadded : (padded (symbol ':')).Reads k₁ () kt :=
    reads_padded.mpr ⟨_, _, k₂, k₃, ⟨h₂, hcolon.1, hk₂⟩, hsymbol, h₄, hcolon.2, hkt.settled⟩
  have hblanks : blanks.Reads k₁ () k₂ := reads_blanks.mpr ⟨_, h₂, hcolon.1, hk₂⟩
  exact .labelled hk <| sticks_bind hkey (turns_spanned (keeps_stringLiteral hstring)) <|
    sticks_bind hpadded (turns_padded hblanks (keeps_symbol_of_reads hsymbol)) hv.bind

end

/-! ### Values -/

section
variable {n : Nat} {kt : Cursor} {gap lead : List Char} (hgap : Blanks gap) (hl : Blanks lead)
  (hkt : kt.Begins) (hF : kt.offset < F.place)
include hgap hl hkt hF

theorem sticks_items {earlier : List (Pad × Form)}
    (hearlier : ∀ i ∈ earlier, (Blanks i.1.before ∧ Blanks i.1.after) ∧ Readable n i.2)
    (hp : k.Passes ('[' :: (gap ++ itemEntries.front earlier ++ lead)) kt) (hi : (valueWithin n).Sticks F kt) :
    (spanless (valueWithin n)).Sticks F k := by
  have hk : k.offset < F.place := Nat.lt_of_le_of_lt hp.offset_le hF
  refine sticks_spanless_array hk (by rw [hp.ahead]; rfl) (.labelled hk ?_)
  exact sticks_bracketed (reads_valueWithin n).items (quiet_valueWithin n) hl hkt hi hF (by decide)
    (fun hr ht => ⟨_, hr, ht⟩) hgap hearlier hp

theorem sticks_members {earlier : List (Written.Label × Form)}
    (hearlier : ∀ m ∈ earlier, (Blanks m.1.outer.before ∧ Blanks m.1.outer.after) ∧
      (Contents m.1.raw ∧ ∃ cs, meaning m.1.raw = .ok cs) ∧
        (Blanks m.1.colon.before ∧ Blanks m.1.colon.after) ∧ Readable n m.2)
    (hp : k.Passes ('\x7b' :: (gap ++ memberEntries.front earlier ++ lead)) kt)
    (hi : (member (valueWithin n)).Sticks F kt) : (spanless (valueWithin n)).Sticks F k := by
  have hk : k.offset < F.place := Nat.lt_of_le_of_lt hp.offset_le hF
  refine sticks_spanless_object hk (by rw [hp.ahead]; rfl) (.labelled hk ?_)
  refine sticks_bracketed (reads_valueWithin n).members (quiet_member (quiet_valueWithin n)) hl hkt hi hF
    (by decide) (fun hr ht => ?_) hgap hearlier hp
  exact ⟨_, reads_members.mpr ⟨_, hr, rfl⟩, turns_members ht⟩

end

/-- **A value** sticks where the literal does that stands in it. -/
theorem sticks_spanless_of_stands {l : Literal} {f : Form} {before after : List Char}
    (hs : f.Stands l before after) {kt : Cursor} (hkt : kt.Begins) (hF : kt.offset < F.place)
    (hvalue : ∀ value : Rule Node, (spanless value).Sticks F kt)
    (hkey : ∀ raw, l = .string raw → stringLiteral.Sticks F kt) :
    ∀ {n k}, Readable (n + 1) f → k.Passes before kt → (spanless (valueWithin n)).Sticks F k := by
  induction hs with
  | here =>
    intro n k _ hp
    obtain rfl := Cursor.passes_nil.mp hp
    exact hvalue _
  | @item gap earlier later pad f before after hs ih =>
    intro n k hf hp
    obtain ⟨hgap, hitems⟩ := hf
    simp only [List.forall_mem_append, List.forall_mem_cons] at hitems
    obtain ⟨hearlier, ⟨hpad, hf⟩, -⟩ := hitems
    rw [← List.cons_append] at hp
    obtain ⟨k₁, h₁, h₂⟩ := Cursor.passes_append.mp hp
    have hk₁ := hs.begins h₂ hkt
    -- what stands in a container is read with one level less
    cases n with
    | zero => cases hf
    | succ n =>
      have hblanks : blanks.Reads k₁ () k₁ := reads_blanks.mpr ⟨[], .refl k₁, blanks_nil, hk₁.settled⟩
      exact sticks_items hgap hpad.1 hk₁ (Nat.lt_of_le_of_lt h₂.offset_le hF) hearlier h₁
        (.padded hblanks (ih hf h₂).spanned.bind)
  | @value gap earlier later label f before after hs ih =>
    intro n k hf hp
    obtain ⟨hgap, hmembers⟩ := hf
    simp only [List.forall_mem_append, List.forall_mem_cons] at hmembers
    obtain ⟨hearlier, ⟨houter, hraw, hcolon, hf⟩, -⟩ := hmembers
    rw [← List.cons_append] at hp
    obtain ⟨k₁, h₁, hp⟩ := Cursor.passes_append.mp hp
    obtain ⟨k₂, h₂, h₃⟩ := Cursor.passes_append.mp hp
    have hk₁ : k₁.Begins := ⟨'"', by rw [h₂.ahead]; rfl, by decide⟩
    have hk₂ := hs.begins h₃ hkt
    have hlt : k₁.offset < F.place := Nat.lt_of_le_of_lt hp.offset_le hF
    cases n with
    | zero => cases hf
    | succ n =>
      have hblanks : blanks.Reads k₂ () k₂ := reads_blanks.mpr ⟨[], .refl k₂, blanks_nil, hk₂.settled⟩
      exact sticks_members hgap houter.1 hk₁ hlt hearlier h₁ <|
        sticks_member_value hlt hraw hcolon h₂ hk₂ (.padded hblanks (ih hf h₃).spanned.bind)
  | @key gap earlier later label f hl =>
    intro n k hf hp
    obtain ⟨hgap, hmembers⟩ := hf
    simp only [List.forall_mem_append, List.forall_mem_cons] at hmembers
    obtain ⟨hearlier, ⟨houter, -⟩, -⟩ := hmembers
    exact sticks_members hgap houter.1 hkt hF hearlier hp (sticks_member_key hF (hkey _ hl))

end JsonSelect.Reading
