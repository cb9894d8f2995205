import JsonSelect.Proofs.Reading.Overrun

/-! # Values that are read to their end

A value that is read leaves nothing noted behind its end: what is missed further on is a part of the value,
and read (`quiet_valueWithin`). Where a rule reads a value or a member up to a character that can follow one,
the place of the noted failure is not after that character. -/

namespace JsonSelect.Reading

open Rule Written

variable {α β γ : Type} {k k' : Cursor} {p : Nat}

/-- A rule for entries that notes nothing behind what it reads, and only its start where it reads nothing. -/
structure Rule.Quiet (item : Rule α) : Prop where
  keeps : ∀ {k a k' p}, item.Reads k a k' → Stops k'.ahead → k'.offset < p → item.Keeps (Noted (Before p)) k
  declines : ∀ {k}, Stops k.ahead → item.Declines k

theorem Cursor.Passes.offset_le {cs : List Char} (h : k.Passes cs k') : k.offset ≤ k'.offset := by
  rw [h.offset]
  exact Nat.le_add_right _ _

/-! ### Scalars -/

theorem keeps_keyword_of_reads {J : Option Failure → Prop} {w : List Char} {u : Unit}
    (h : (keyword w).Reads k u k') : (keyword w).Keeps J k := by
  induction w generalizing k with
  | nil => exact keeps_pure
  | cons c w ih =>
    obtain ⟨v, k₁, h₁, h₂⟩ := reads_bind.mp h
    exact turns_bind_of_reads h₁ (keeps_symbol_of_reads h₁) (ih h₂)

theorem keeps_constant {w : String} {s : Scalar} {R : Nat → Span → Prop} (h : k.Passes w.toList k') :
    (constant w s).Keeps (Noted R) k :=
  keeps_labelled (absorbs_noted _) <|
    turns_bind (keeps_keyword_of_reads (u := ()) (reads_keyword.mpr h)) fun _ _ _ => keeps_pure

theorem keeps_stringLiteral {R : Nat → Span → Prop} {s : String} (h : stringLiteral.Reads k s k') :
    stringLiteral.Keeps (Noted R) k := by
  obtain ⟨u, k₁, hopen, h⟩ := reads_bind.mp (reads_labelled.mp h)
  obtain ⟨s, k₂, hdecoded, h⟩ := reads_bind.mp h
  obtain ⟨v, k₃, hclose, -⟩ := reads_bind.mp h
  obtain ⟨ps, cs, hc, hd, -⟩ := reads_decoded.mp hdecoded
  have hspanned : (spanned contents).Reads k₁ (⟨k₁.offset, k₂.offset⟩, ps) k₂ := reads_spanned.mpr ⟨rfl, hc⟩
  have hkeeps : decoded.Keeps (Noted R) k₁ := by
    refine turns_bind_of_reads hspanned (turns_spanned (turns_contents (noted_none R))) ?_
    simpa only [hd] using keeps_pure
  exact keeps_labelled (absorbs_noted _) <| turns_bind_of_reads hopen (keeps_symbol_of_reads hopen) <|
    turns_bind_of_reads hdecoded hkeeps <| turns_bind_of_reads hclose (keeps_symbol_of_reads hclose) keeps_pure

theorem keeps_number {n : Number} (hr : number.Reads k n k')
    (ho : StartsOutside continuesNumber k'.ahead) (hp : k'.offset < p) :
    number.Keeps (Noted (Before p)) k := by
  obtain ⟨l, hl, -⟩ := reads_number.mp hr
  refine turns_number hl ho fun o hn => absorbs_noted _ longerFirst o _ hn ?_
  rw [Before, place_overrun]
  exact hp

/-! ### Entries -/

theorem keeps_comma {J : Option Failure → Prop} {u : Unit} (hk : Settled k) (h : comma.Reads k u k') :
    comma.Keeps J k := by
  obtain ⟨lead, -, hp, -⟩ := (reads_comma hk).mp h
  obtain ⟨k₁, h₁, -⟩ := Cursor.passes_cons.mp hp
  exact turns_padded (reads_blanks.mpr ⟨[], .refl k, blanks_nil, hk⟩)
    (keeps_symbol_of_reads (u := ()) (reads_symbol.mpr h₁))

section
variable {item : Rule α} {e : Entries β α} {good : β → Prop} (h : ReadsEntries item e good)
  (hq : item.Quiet)
include h hq

/-- A chain of items keeps what is noted before its end. -/
theorem row_of_chain {as : List α} (hc : Chain item comma k as k') : Settled k → Stops k'.ahead →
    k'.ahead.head? ≠ some ',' → k'.offset < p →
      Row item comma (Noted (Before p)) (Noted (Before p)) k as k' ∧ Stops k.ahead ∧ k.offset ≤ k'.offset := by
  induction hc with
  | @stop k hm =>
    intro hk hstops hcomma hp
    have hd : comma.Declines k := (declines_symbol hcomma).padded hk
    exact ⟨.stop hm (hd.bind.keeps (absorbs_noted _) hp), hstops, Nat.le_refl _⟩
  | @more k k₁ k₂ k' a as hs hi _ ih =>
    intro hk hstops hcomma hp
    obtain ⟨lead, hl, h₁, hk₁⟩ := (reads_comma hk).mp hs
    obtain ⟨b, -, -, h₂, hk₂, -⟩ := h.sound hk₁ blanks_nil hi
    obtain ⟨hrow, hstops₂, hle⟩ := ih hk₂ hstops hcomma hp
    have hnext : (do comma; item : Rule α).Keeps (Noted (Before p)) k :=
      turns_bind_of_reads hs (keeps_comma hk hs) (hq.keeps hi hstops₂ (Nat.lt_of_le_of_lt hle hp))
    refine ⟨.more hs hi hnext hrow, stops_of_passes h₁ (by decide), ?_⟩
    exact Nat.le_trans h₁.offset_le (Nat.le_trans h₂.offset_le hle)

theorem keeps_separated {as : List α} (hk : Settled k) (hr : (separated item comma).Reads k as k')
    (hstops : Stops k'.ahead) (hcomma : k'.ahead.head? ≠ some ',') (hp : k'.offset < p) :
    (separated item comma).Keeps (Noted (Before p)) k := by
  rcases (reads_separated h.progress).mp hr with ⟨rfl, rfl, hm⟩ | ⟨a, k₁, rest, rfl, hi, hc⟩
  · exact turns_separated_nil hm ((hq.declines hstops).keeps (absorbs_noted _) hp)
  · obtain ⟨b, -, -, h₁, hk₁, -⟩ := h.sound hk blanks_nil hi
    obtain ⟨hrow, hstops₁, hle⟩ := row_of_chain h hq hc hk₁ hstops hcomma hp
    exact turns_separated_cons h.progress hi (hq.keeps hi hstops₁ (Nat.lt_of_le_of_lt hle hp)) hrow

/-- A container keeps what is noted before its end. -/
theorem keeps_bracketed {left right : Char} (hright : right ∈ "]\x7d".toList) {inside : Rule γ} {c : γ}
    (hread : ∀ {k c k'}, inside.Reads k c k' → ∃ as, (separated item comma).Reads k as k')
    (hin : ∀ {k}, (separated item comma).Keeps (Noted (Before p)) k → inside.Keeps (Noted (Before p)) k)
    (hr : (bracketed left right inside).Reads k c k') (hp : k'.offset < p) :
    (bracketed left right inside).Keeps (Noted (Before p)) k := by
  obtain ⟨u, k₀, hopen, hr⟩ := reads_bind.mp hr
  obtain ⟨c, k₃, hpadded, hr⟩ := reads_bind.mp hr
  obtain ⟨v, k₄, hclose, hr⟩ := reads_bind.mp hr
  obtain ⟨-, rfl⟩ := reads_pure.mp hr
  obtain ⟨gap, tail, k₁, k₂, ⟨h₁, hgap, hk₁⟩, hi, h₂, htail, -⟩ := reads_padded.mp hpadded
  obtain ⟨as, hs⟩ := hread hi
  obtain ⟨bs, -, -, hk₂, -⟩ := h.entries_of_reads_separated hk₁ hs
  obtain ⟨rfl, rfl⟩ := hk₂.passes h₂ htail
  have h₃ := reads_symbol.mp hclose
  have hstops : Stops k₃.ahead := stops_of_passes h₃ (List.mem_cons_of_mem _ hright)
  have hcomma : k₃.ahead.head? ≠ some ',' := by
    rw [h₃.ahead]
    rintro e
    cases e
    exact absurd hright (by decide)
  have hkeeps := hin (keeps_separated h hq hk₁ hs hstops hcomma (Nat.lt_of_le_of_lt h₃.offset_le hp))
  have hblanks : blanks.Reads k₀ () k₁ := reads_blanks.mpr ⟨gap, h₁, hgap, hk₁⟩
  exact turns_bind_of_reads hopen (keeps_symbol_of_reads hopen) <|
    turns_bind_of_reads hpadded (turns_padded hblanks hkeeps) <|
    turns_bind_of_reads hclose (keeps_symbol_of_reads hclose) keeps_pure

end

/-! ### Values -/

/-- Members leave notes as the list of them does. -/
theorem turns_members {value : Rule Node} {J J' : Option Failure → Prop}
    (hs : (separated (member value) comma).Turns J J' k) : (members value).Turns J J' k :=
  turns_bind hs fun _ _ _ => turns_bind keeps_noteCollapse fun _ _ _ => keeps_pure

/-- A node made of what was read leaves notes as that does. -/
theorem turns_node {r : Rule α} {g : α → Span → Node} {J J' : Option Failure → Prop} (hr : r.Turns J J' k) :
    (do let a ← r; return g a : Rule (Span → Node)).Turns J J' k :=
  turns_bind hr fun _ _ _ => keeps_pure

/-- The alternatives in front of a literal's own decline; its own reads it. -/
theorem keeps_spanless_literal {value : Rule Node} {l : Literal} (hg : (Form.literal l).Grammatical)
    (ha : (Form.literal l).Accepted) (hpasses : k.Passes l.chars k')
    (ho : StartsOutside continuesNumber k'.ahead) (hp : k'.offset < p) :
    (spanless value).Keeps (Noted (Before p)) k := by
  have hJ := absorbs_noted (Before p)
  have hk : k.offset < p := Nat.lt_of_le_of_lt hpasses.offset_le hp
  have hhead : k.ahead.head? = (l.chars ++ k'.ahead).head? := by rw [hpasses.ahead]
  cases l with
  | null => exact turns_orElse_of_reads (reads_constant.mpr ⟨hpasses, rfl⟩) (keeps_constant hpasses)
  | boolean b =>
    refine turns_orElse_right (declines_constant (c := 'n') rfl ?_) hJ hk ?_
    · cases b <;> simp [hhead, Literal.chars]
    cases b with
    | true => exact turns_orElse_of_reads (reads_constant.mpr ⟨hpasses, rfl⟩) (keeps_constant hpasses)
    | false =>
      refine turns_orElse_right (declines_constant (c := 't') rfl ?_) hJ hk ?_
      · simp [hhead, Literal.chars]
      exact turns_orElse_of_reads (reads_constant.mpr ⟨hpasses, rfl⟩) (keeps_constant hpasses)
  | number l =>
    obtain ⟨c, cs, hchars, hc⟩ := head_numberLiteral hg
    obtain ⟨n, hn⟩ := ha
    have hnumber : number.Reads k n k' := reads_number.mpr ⟨l, reads_numberLiteral hg hpasses ho, hn⟩
    refine turns_behind_keywords (c := c) ?_ (not_mem_of_startsNumber hc) hJ hk ?_
    · rw [hhead, Literal.chars, hchars]
      rfl
    · exact turns_orElse_of_reads (reads_bind.mpr ⟨n, k', hnumber, rfl⟩)
        (turns_node (keeps_number hnumber ho hp))
  | string raw =>
    have hstring : stringLiteral.Reads k (denoted raw) k' :=
      reads_stringLiteral.mpr ⟨raw, hg, ha, rfl, hpasses⟩
    exact turns_behind_keywords hhead (by decide) hJ hk <|
      turns_orElse_right (declines_number_of_head hhead (.inl rfl)).bind hJ hk <|
      turns_orElse_of_reads (reads_bind.mpr ⟨_, k', hstring, rfl⟩) (turns_node (keeps_stringLiteral hstring))

section
variable {value : Rule Node} {good : Form → Prop} (h : ReadsForms value good) (hq : value.Quiet)
include hq

theorem quiet_member : (member value).Quiet where
  keeps {k m k' p} hr hstops hp := by
    obtain ⟨⟨span, name⟩, k₁, hkey, hr⟩ := reads_bind.mp (reads_labelled.mp hr)
    obtain ⟨u, k₂, hcolon, hr⟩ := reads_bind.mp hr
    obtain ⟨n, k₃, hvalue, hr⟩ := reads_bind.mp hr
    obtain ⟨-, rfl⟩ := reads_pure.mp hr
    obtain ⟨-, hstring⟩ := reads_spanned.mp hkey
    obtain ⟨cs, ds, k₄, k₅, ⟨h₄, hb, hk₄⟩, hsymbol, -⟩ := reads_padded.mp hcolon
    have hblanks : blanks.Reads k₁ () k₄ := reads_blanks.mpr ⟨cs, h₄, hb, hk₄⟩
    exact keeps_labelled (absorbs_noted _) <|
      turns_bind_of_reads hkey (turns_spanned (keeps_stringLiteral hstring)) <|
      turns_bind_of_reads hcolon (turns_padded hblanks (keeps_symbol_of_reads hsymbol)) <|
      turns_bind_of_reads hvalue (hq.keeps hvalue hstops hp) keeps_pure
  declines {k} hk := declines_member fun e => absurd (hk _ e) (by decide)

include h

theorem keeps_array {items : List Node} (hr : (array value).Reads k items k') (hp : k'.offset < p) :
    (array value).Keeps (Noted (Before p)) k :=
  keeps_labelled (absorbs_noted _) <|
    keeps_bracketed h.items hq (by decide) (fun hs => ⟨_, hs⟩) id (reads_labelled.mp hr) hp

theorem keeps_object {ms : List (Key × Node)} (hr : (object value).Reads k ms k') (hp : k'.offset < p) :
    (object value).Keeps (Noted (Before p)) k := by
  refine keeps_labelled (absorbs_noted _) ?_
  refine keeps_bracketed h.members (quiet_member hq) (by decide) (fun hm => ?_) turns_members
    (reads_labelled.mp hr) hp
  obtain ⟨all, hall, -⟩ := reads_members.mp hm
  exact ⟨all, hall⟩

theorem keeps_spanless {g : Span → Node} (hr : (spanless value).Reads k g k')
    (ho : StartsOutside continuesNumber k'.ahead) (hp : k'.offset < p) :
    (spanless value).Keeps (Noted (Before p)) k := by
  have hJ := absorbs_noted (Before p)
  rcases reads_spanless hr with ⟨l, hg, ha, hpasses, -⟩ | ⟨items, hitems, rfl⟩ | ⟨ms, hms, rfl⟩
  · exact keeps_spanless_literal hg ha hpasses ho hp
  · obtain ⟨gap, is, -, -, hpasses, -⟩ := (reads_array h).mp hitems
    have hk : k.offset < p := Nat.lt_of_le_of_lt hpasses.offset_le hp
    have hhead := head_of_reads_bracketed (reads_labelled.mp hitems)
    exact turns_behind_keywords hhead (by decide) hJ hk <|
      turns_orElse_right (declines_number_of_head hhead (.inr (.inl rfl))).bind hJ hk <|
      turns_orElse_right (declines_stringLiteral (by rw [hhead]; decide)).bind hJ hk <|
      turns_orElse_of_reads (reads_bind.mpr ⟨items, k', hitems, rfl⟩) (turns_node (keeps_array h hq hitems hp))
  · obtain ⟨gap, all, -, -, hpasses, -⟩ := (reads_object h).mp hms
    have hk : k.offset < p := Nat.lt_of_le_of_lt hpasses.offset_le hp
    have hhead := head_of_reads_bracketed (reads_labelled.mp hms)
    exact turns_behind_keywords hhead (by decide) hJ hk <|
      turns_orElse_right (declines_number_of_head hhead (.inr (.inr rfl))).bind hJ hk <|
      turns_orElse_right (declines_stringLiteral (by rw [hhead]; decide)).bind hJ hk <|
      turns_orElse_right (declines_array (by rw [hhead]; decide)).bind hJ hk <|
      turns_node (keeps_object h hq hms hp)

end

/-- **A value** leaves nothing noted behind its end. -/
theorem quiet_valueWithin (n : Nat) : (valueWithin n).Quiet := by
  induction n with
  | zero => exact ⟨fun hr => absurd hr not_reads_fail, declines_valueWithin⟩
  | succ n ih =>
    refine ⟨fun {k nd k' p} hr hstops hp => ?_, declines_valueWithin⟩
    obtain ⟨cs, ds, k₁, k₂, g, ⟨h₁, hb, hk₁⟩, hg, -, h₂, hd, -⟩ := reads_valueWithin_succ.mp hr
    have ho := startsOutside_continuesNumber hd h₂ hstops
    have hkeeps := keeps_spanless (reads_valueWithin n) ih hg ho (Nat.lt_of_le_of_lt h₂.offset_le hp)
    exact turns_padded (reads_blanks.mpr ⟨cs, h₁, hb, hk₁⟩) <|
      turns_bind (turns_spanned hkeeps) fun _ _ _ => keeps_pure

end JsonSelect.Reading
