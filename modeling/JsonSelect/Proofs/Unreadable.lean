import JsonSelect.Proofs.Document
import JsonSelect.Proofs.Reading.Stuck

/-! # Documents with one unreadable literal

Put a literal that denotes nothing in the place of one that does, and a document becomes a source with one
error. `Accepts before l after` says that a document has the literal `l` as a token between two texts; then
the whole reading sticks where the literal in its place does (`parse_of_sticks`).

* `parse_undecodable`: contents of a string literal that denote no text are named and shown by the error,
  wherever they stand.
* `parse_outOfRange`: a number literal that denotes no number is not. It is rejected at its start, but what
  could have come next is noted behind its end, and that is further on. -/

namespace JsonSelect

open Reading Rule Written Text

/-! ### Literals -/

namespace Reading

variable {k k' : Cursor}

/-- A string literal sticks at its contents if they denote no text. -/
theorem sticks_stringLiteral {raw : List Char} (hraw : Contents raw) {e : LiteralError}
    (he : meaning raw = .error e) (hp : k.Passes (enclosed raw) k') : stringLiteral.Sticks
      ⟨k.offset + 1, .undecodable e, ⟨k.offset + 1, k.offset + 1 + byteLength raw⟩⟩ k := by
  obtain ⟨ps, hs⟩ := hraw
  obtain ⟨k₁, h₁, hp⟩ := Cursor.passes_cons.mp hp
  obtain ⟨k₂, h₂, h₃⟩ := Cursor.passes_append.mp hp
  have hquote : (symbol '"').Reads k () k₁ := reads_symbol.mpr h₁
  have hspan : (⟨k₁.offset, k₂.offset⟩ : Span) = ⟨k.offset + 1, k.offset + 1 + byteLength raw⟩ := by
    rw [h₂.offset, h₁.offset]
    rfl
  have hcontents : (spanned contents).Reads k₁ (⟨k₁.offset, k₂.offset⟩, ps) k₂ :=
    reads_spanned.mpr ⟨rfl, reads_contents hs h₂ (.inr (by rw [h₃.ahead]; rfl))⟩
  have hd : decode ps = .error e := by rw [← meaning_of_spells hs, he]
  have hreject : (reject ⟨k.offset + 1, k.offset + 1 + byteLength raw⟩ (.undecodable e) : Rule String).Sticks
      ⟨k.offset + 1, .undecodable e, ⟨k.offset + 1, k.offset + 1 + byteLength raw⟩⟩ k₂ :=
    ⟨rfl, turns_reject _ _⟩
  have hdecoded : decoded.Sticks
      ⟨k.offset + 1, .undecodable e, ⟨k.offset + 1, k.offset + 1 + byteLength raw⟩⟩ k₁ := by
    refine sticks_bind hcontents (turns_spanned (turns_contents (noted_none _))) ?_
    simpa only [hd, hspan] using hreject
  exact .labelled (Nat.lt_succ_self _) (sticks_bind hquote (keeps_symbol_of_reads hquote) hdecoded.bind)

/-- A number sticks behind its literal if that denotes no number. -/
theorem sticks_number {l : NumberLiteral} (hn : l.number? = none) (h : numberLiteral.Reads k l k')
    (ho : StartsOutside continuesNumber k'.ahead) : number.Sticks (overrun l k') k := by
  refine ⟨misses_iff.mpr fun n k₁ hr => ?_, turns_number h ho fun o hJ => ?_⟩
  · obtain ⟨l', hl', hn'⟩ := reads_number.mp hr
    obtain ⟨rfl, rfl⟩ := hl'.unique h
    rw [hn] at hn'
    cases hn'
  · exact congrArg some (added_of_before hJ longerFirst)

end Reading

namespace Document

/-! ### Documents with a token -/

/-- There is a document with the literal `l` as a token between two texts. -/
def Accepts (before : List Char) (l : Literal) (after : List Char) : Prop :=
  ∃ pad f inner outer, Derivation (String.ofList (before ++ l.chars ++ after)) pad f ∧
    f.Stands l inner outer ∧ before = pad.before ++ inner ∧ after = outer ++ pad.after

variable {before after : List Char} {l l' : Literal} {F : Failure}

/-- With another literal in the place of the token the source is as deep. -/
theorem Accepts.shallow (h : Accepts before l after) (hl : l'.Replaces l)
    (hg : (Form.literal l').Grammatical) : tooDeepAt? (before ++ l'.chars ++ after) = none := by
  obtain ⟨pad, f, inner, outer, ⟨⟨-, hb, ha, hgram⟩, hdepth, -⟩, hs, rfl, rfl⟩ := h
  obtain ⟨f', hs', hgram', hdepth'⟩ := hs.replace hl
  have hderives : Derives (pad.before ++ inner ++ l'.chars ++ (outer ++ pad.after)) pad f' := by
    refine ⟨?_, hb, ha, hgram' hgram hg⟩
    rw [Pad.around, hs'.chars]
    simp only [List.append_assoc]
  exact (tooDeepAt_eq_none hderives).mpr (hdepth' ▸ hdepth)

section
variable (h : Accepts before l after) (hg : (Form.literal l').Grammatical) (hF : byteLength before < F.place)
  (hvalue : ∀ value : Rule Node, (spanless value).Sticks F ⟨l'.chars ++ after, byteLength before⟩)
  (hkey : ∀ raw, l = .string raw → stringLiteral.Sticks F ⟨l'.chars ++ after, byteLength before⟩)
include h hg hF hvalue hkey

/-- The reading of the whole source sticks where the literal does. -/
theorem Accepts.sticks : (documentWithin levels).Sticks F (Cursor.start (before ++ l'.chars ++ after)) := by
  obtain ⟨pad, f, inner, outer, ⟨⟨-, hb, -, hgram⟩, hdepth, hacc⟩, hs, rfl, rfl⟩ := h
  have hpasses : (Cursor.start (pad.before ++ inner ++ l'.chars ++ (outer ++ pad.after))).Passes
      (pad.before ++ inner) ⟨l'.chars ++ (outer ++ pad.after), byteLength (pad.before ++ inner)⟩ :=
    ⟨List.append_assoc .., (Nat.zero_add _).symm⟩
  obtain ⟨k₁, h₁, h₂⟩ := Cursor.passes_append.mp hpasses
  have hbegins : Cursor.Begins ⟨l'.chars ++ (outer ++ pad.after), byteLength (pad.before ++ inner)⟩ := by
    obtain ⟨c, cs, hchars, hc⟩ := head_chars hg
    refine ⟨c, ?_, hc⟩
    rw [Form.chars] at hchars
    rw [hchars]
    rfl
  have hspanless := sticks_spanless_of_stands hs hbegins hF hvalue hkey
    (readable_of_depth hgram hacc hdepth) h₂
  have hvalueWithin : (valueWithin levels).Sticks F (Cursor.start _) :=
    .padded (reads_blanks.mpr ⟨_, h₁, hb, (hs.begins h₂ hbegins).settled⟩) hspanless.spanned.bind
  exact hvalueWithin.bind.labelled (Nat.lt_of_le_of_lt (Nat.zero_le _) hF)

/-- **One literal that sticks** makes the reading of a document stick. -/
theorem parse_of_sticks (hl : l'.Replaces l) :
    parse (String.ofList (before ++ l'.chars ++ after)) = .error [.ofFailure F] := by
  have hdocument := h.sticks hg hF hvalue hkey
  have hroot : root? (String.ofList (before ++ l'.chars ++ after)) = none := by
    rw [root?, reading, String.toList_ofList, hdocument.misses]
    rfl
  have hnotes : (notes (String.ofList (before ++ l'.chars ++ after))).failure = some F := by
    rw [notes, reading, String.toList_ofList]
    exact hdocument.turns Notes.none (noted_none _)
  have hshallow : tooDeepAt? (String.ofList (before ++ l'.chars ++ after)).toList = none := by
    rw [String.toList_ofList, h.shallow hl hg]
  rw [parse_of_none hshallow hroot, failure, hnotes, Option.getD_some]

end

/-! ### String literals -/

/-- **A string literal that cannot be decoded** is named by the error, and its contents are shown. -/
theorem parse_undecodable {raw : List Char} {e : LiteralError} (h : Accepts before (.string []) after)
    (hraw : Contents raw) (he : meaning raw = .error e) :
    ∃ err, parse (String.ofList (before ++ enclosed raw ++ after)) = .error [err] ∧
      err.message = "invalid string literal: " ++ e.message ∧
      err.span = ⟨byteLength before + 1, byteLength before + 1 + byteLength raw⟩ := by
  have hp : Cursor.Passes ⟨enclosed raw ++ after, byteLength before⟩ (enclosed raw)
      ⟨after, byteLength before + byteLength (enclosed raw)⟩ := ⟨rfl, rfl⟩
  have hs := sticks_stringLiteral hraw he hp
  have hlt : byteLength before < byteLength before + 1 := Nat.lt_succ_self _
  have hreplaces : (Literal.string raw).Replaces (.string []) := fun _ _ => ⟨raw, rfl⟩
  have hg : (Form.literal (.string raw)).Grammatical := hraw
  have hparse := parse_of_sticks h hg hlt (fun value => sticks_spanless_string hlt rfl hs) (fun _ _ => hs)
    hreplaces
  exact ⟨_, hparse, rfl, rfl⟩

/-- A key with half of a surrogate pair, in the second item of an array. -/
theorem parse_undecodable_key : ∃ err,
    parse (String.ofList ("[true, \x7b".toList ++ enclosed "\\ud800".toList ++ " : null\x7d]".toList)) =
        .error [err] ∧
      err.message = "invalid string literal: unexpected end of hex escape at line 1 column 8" ∧
      err.span = ⟨9, 15⟩ := by
  have hblank : isBlank ' ' = true := by decide
  let member : Form := .object [] ([] ++ (⟨⟨[], []⟩, [], ⟨[' '], [' ']⟩⟩, .literal .null) :: [])
  have hderivation : Derivation "[true, \x7b\"\" : null\x7d]" ⟨[], []⟩
      (.array [] ([(⟨[], []⟩, .literal (.boolean true))] ++ (⟨[' '], []⟩, member) :: [])) := by
    have hempty : Contents [] := ⟨[], .nil⟩
    have hmeaning : meaning [] = .ok [] := meaning_of_spells .nil
    refine ⟨⟨rfl, blanks_nil, blanks_nil, ?_⟩, by decide, ?_⟩
    · simp [member, Form.Grammatical, Form.Each, Form.EachItem, Form.EachMember, Blanks, hblank, hempty]
    · simp [member, Form.Accepted, Form.Each, Form.EachItem, Form.EachMember, hmeaning]
  have haccepts : Accepts "[true, \x7b".toList (.string []) " : null\x7d]".toList :=
    ⟨_, _, _, _, hderivation, .item (.key rfl), rfl, rfl⟩
  have hspells : Spells [.unicode 0xD800] "\\ud800".toList := .unicode rfl .nil
  have he : meaning "\\ud800".toList = .error ⟨.unfinishedPair, 1, 8⟩ := meaning_of_spells hspells
  exact parse_undecodable haccepts ⟨_, hspells⟩ he

/-! ### Number literals -/

theorem message_unexpected (es : List Expectation) (found : Option Char) :
    ∃ rest, (Cause.unexpected es found).message = "found " ++ rest := by
  obtain ⟨x, y, h⟩ : ∃ x y, (Cause.unexpected es found).message = s!"found {x} expected {y}" := ⟨_, _, rfl⟩
  refine ⟨x ++ (" expected " ++ y), ?_⟩
  rw [h]
  simp only [toString, String.append_assoc]

theorem message_outOfRange (literal : String) :
    ∃ rest, (Cause.outOfRange literal).message = "number `" ++ rest := by
  refine ⟨literal ++ "` is out of range", ?_⟩
  show s!"number `{literal}` is out of range" = _
  simp only [toString, String.append_assoc]

/-- What is missed behind a literal is worded otherwise than that it is out of range. -/
theorem message_overrun_ne (l : NumberLiteral) (k : Cursor) (literal : String) :
    (overrun l k).cause.message ≠ (Cause.outOfRange literal).message := by
  have hcause : ∃ es found, (overrun l k).cause = .unexpected es found := by
    unfold overrun
    split <;> exact ⟨_, _, rfl⟩
  obtain ⟨es, found, hcause⟩ := hcause
  obtain ⟨x, hx⟩ := message_unexpected es found
  obtain ⟨y, hy⟩ := message_outOfRange literal
  have hfound : "found ".toList = 'f' :: "ound ".toList := rfl
  have hnumber : "number `".toList = 'n' :: "umber `".toList := rfl
  intro h
  have h := congrArg String.toList h
  rw [hcause, hx, hy, String.toList_append, String.toList_append, hfound, hnumber] at h
  cases h

/-- What is missed behind a literal does not show the literal from its start. -/
theorem lt_start_overrun {l : NumberLiteral} (hl : GrammaticalNumber l) {start : Nat} {k : Cursor}
    (hk : k.offset = start + byteLength l.chars) : start < (overrun l k).span.start := by
  obtain ⟨c, cs, hchars, -⟩ := head_numberLiteral hl
  have hpos : 0 < byteLength l.chars := byteLength_pos (hchars ▸ List.cons_ne_nil c cs)
  unfold overrun
  split
  · next letter d hexponent =>
    have hletter := letter.utf8Size_pos
    have hd := d.utf8Size_pos
    have hlength : letter.utf8Size + d.utf8Size ≤ byteLength l.chars := by
      rw [NumberLiteral.chars, hexponent, byteLength_append]
      exact Nat.le_add_left _ _
    show start < k.offset - 1
    omega
  · show start < k.offset
    omega
  · show start < k.offset
    omega

/-- The literal of the number zero. -/
def zero : NumberLiteral := ⟨false, ['0'], none, none⟩

/-- **A number literal that is out of range** is not what the error is about: it says what could have come
next behind the literal, and shows what stands there, or the only digit of the exponent. -/
theorem parse_outOfRange {l : NumberLiteral} (h : Accepts before (.number zero) after)
    (hl : GrammaticalNumber l) (hn : l.number? = none) : ∃ e,
    parse (String.ofList (before ++ l.chars ++ after)) = .error [e] ∧
      e = .ofFailure (overrun l ⟨after, byteLength (before ++ l.chars)⟩) ∧
      (∀ literal : String, e.message ≠ s!"number `{literal}` is out of range") ∧
      byteLength before < e.span.start := by
  have hafter : StartsOutside continuesNumber after := by
    obtain ⟨pad, f, inner, outer, hd, hs, -, rfl⟩ := h
    have hpad := startsOutside_blanks hd.derives.after (startsOutside_nil continuesNumber)
    rw [List.append_nil] at hpad
    exact hs.startsOutside (fun raw e => by cases e) hd.derives.grammatical hpad
  have hlength : byteLength (before ++ l.chars) = byteLength before + byteLength l.chars :=
    byteLength_append _ _
  have hp : Cursor.Passes ⟨l.chars ++ after, byteLength before⟩ l.chars ⟨after, byteLength (before ++ l.chars)⟩ :=
    ⟨rfl, hlength⟩
  have hs := sticks_number hn (reads_numberLiteral hl hp hafter) hafter
  obtain ⟨c, cs, hchars, hc⟩ := head_numberLiteral hl
  have hlt : byteLength before < (overrun l ⟨after, byteLength (before ++ l.chars)⟩).place := by
    have hpos : 0 < byteLength l.chars := byteLength_pos (hchars ▸ List.cons_ne_nil c cs)
    rw [place_overrun, hlength]
    exact Nat.lt_add_of_pos_right hpos
  have hhead : (l.chars ++ after).head? = some c := by rw [hchars]; rfl
  have hreplaces : (Literal.number l).Replaces (.number zero) := fun raw e => by cases e
  have hg : (Form.literal (.number l)).Grammatical := hl
  have hparse := parse_of_sticks h hg hlt (fun value => sticks_spanless_number hlt hhead hc hs)
    (fun raw e => by cases e) hreplaces
  exact ⟨_, hparse, rfl, message_overrun_ne _ _, lt_start_overrun hl hlength⟩

/-- A number with an exponent of ten digits, in an array. -/
theorem parse_outOfRange_exponent : ∃ e,
    parse (String.ofList ("[".toList ++ "1e9999999999".toList ++ "]".toList)) = .error [e] ∧
      (e.message = "found ] expected something else" ∧ e.span = ⟨13, 14⟩) ∧
      ∀ literal : String, e.message ≠ s!"number `{literal}` is out of range" := by
  have hdigits : Digits "9999999999".toList := ⟨by simp, List.all_eq_true.mp (by decide)⟩
  have hl : GrammaticalNumber ⟨false, ['1'], none, some ⟨'e', none, "9999999999".toList⟩⟩ := by
    refine ⟨.inr ⟨⟨by simp, List.all_eq_true.mp (by decide)⟩, by decide⟩, fun ds e => (by cases e), ?_⟩
    rintro e ⟨⟩
    exact ⟨.inl rfl, fun c hc => (by cases hc), hdigits⟩
  have hderivation : Derivation "[0]" ⟨[], []⟩
      (.array [] ([] ++ (⟨[], []⟩, .literal (.number zero)) :: [])) := by
    have hzero : GrammaticalNumber zero := ⟨.inl rfl, fun ds e => (by cases e), fun x e => (by cases e)⟩
    have hvalue : zero.number? = some (.integer 0) := rfl
    refine ⟨⟨rfl, blanks_nil, blanks_nil, ?_⟩, by decide, ?_⟩
    · simp [Form.Grammatical, Form.Each, Form.EachItem, Blanks, hzero]
    · simp [Form.Accepted, Form.Each, Form.EachItem, hvalue]
  have haccepts : Accepts "[".toList (.number zero) "]".toList :=
    ⟨_, _, _, _, hderivation, .item .here, rfl, rfl⟩
  obtain ⟨e, hparse, rfl, hne, -⟩ := parse_outOfRange haccepts hl rfl
  exact ⟨_, hparse, ⟨rfl, rfl⟩, hne⟩

end Document

end JsonSelect
