import JsonSelect.Location
import JsonSelect.Proofs.Reading.Outcome
import Mathlib.Data.List.Induction

/-! # Locations and offsets

`Location.behind` follows a text one character at a time and says at which line and column it ends, so it is
the location of the character that comes next. The offset of a location is found the other way round, by
cutting the text into lines. The two belong together: a location has an offset where it is the location
behind the text of that length, unless that text ends in a carriage return that the line break takes in
(`offsetOf?_eq_some`). A longer text ends at a later location, so locations and offsets are in the same order
(`offsetOf?_in_order`). -/

namespace JsonSelect

open Reading

namespace Location

/-- The location behind one more character. -/
def step (l : Location) (c : Char) : Location :=
  if c = '\n' then ⟨l.line + 1, 1⟩ else ⟨l.line, l.column + 1⟩

/-- The location behind a text, which is that of the character behind it. -/
def behind (cs : List Char) : Location := cs.foldl step ⟨1, 1⟩

theorem behind_append_singleton (cs : List Char) (c : Char) : behind (cs ++ [c]) = (behind cs).step c := by
  rw [behind, List.foldl_append]
  rfl

/-! ### Texts from their front -/

/-- Where a location `r` of a text lies if the text starts at `l` instead of line 1, column 1. -/
def shift (l r : Location) : Location :=
  if r.line = 1 then ⟨l.line, l.column + (r.column - 1)⟩ else ⟨l.line + (r.line - 1), r.column⟩

theorem behind_pos (cs : List Char) : 0 < (behind cs).line ∧ 0 < (behind cs).column := by
  unfold behind
  induction cs using List.reverseRecOn with
  | nil => exact ⟨Nat.one_pos, Nat.one_pos⟩
  | append_singleton cs c ih =>
    rw [List.foldl_append, List.foldl_cons, List.foldl_nil, step]
    split
    · exact ⟨Nat.succ_pos _, Nat.one_pos⟩
    · exact ⟨ih.1, Nat.succ_pos _⟩

theorem foldl_step (l : Location) (cs : List Char) : cs.foldl step l = shift l (behind cs) := by
  induction cs using List.reverseRecOn with
  | nil => rfl
  | append_singleton cs c ih =>
    have hpos := behind_pos cs
    have hb : behind (cs ++ [c]) = step (behind cs) c := by simp [behind]
    rw [List.foldl_append, ih, hb, List.foldl_cons, List.foldl_nil]
    unfold shift step
    split_ifs <;> simp_all <;> omega

theorem behind_newline (cs : List Char) :
    behind ('\n' :: cs) = ⟨(behind cs).line + 1, (behind cs).column⟩ := by
  have hpos := behind_pos cs
  have h : behind ('\n' :: cs) = cs.foldl step ⟨2, 1⟩ := rfl
  rw [h, foldl_step, shift]
  split_ifs with hl <;> simp <;> omega

theorem behind_cons {c : Char} (hc : c ≠ '\n') (cs : List Char) : behind (c :: cs) =
    if (behind cs).line = 1 then ⟨1, (behind cs).column + 1⟩ else behind cs := by
  have hpos := behind_pos cs
  have h : behind (c :: cs) = cs.foldl step ⟨1, 2⟩ := by
    rw [behind, List.foldl_cons, step, if_neg hc]
  rw [h, foldl_step, shift]
  split_ifs with hl
  · simp only [mk.injEq, true_and]
    omega
  · rw [Nat.add_sub_cancel' hpos.1]

theorem behind_nil : behind [] = ⟨1, 1⟩ := rfl

theorem behind_newline_eq {cs : List Char} {line column : Nat} :
    behind ('\n' :: cs) = ⟨line + 1, column⟩ ↔ behind cs = ⟨line, column⟩ := by
  rw [behind_newline]
  generalize behind cs = l
  cases l
  simp

theorem behind_cons_eq_first {c : Char} (hc : c ≠ '\n') {cs : List Char} {column : Nat} :
    behind (c :: cs) = ⟨1, column + 1⟩ ↔ behind cs = ⟨1, column⟩ := by
  rw [behind_cons hc]
  generalize behind cs = l
  cases l
  split_ifs <;> simp_all

theorem behind_cons_eq_later {c : Char} (hc : c ≠ '\n') {cs : List Char} {line column : Nat} :
    behind (c :: cs) = ⟨line + 2, column⟩ ↔ behind cs = ⟨line + 2, column⟩ := by
  rw [behind_cons hc]
  generalize behind cs = l
  cases l
  split_ifs <;> simp_all

end Location

/-! ### Locations in a text -/

/-- Nothing follows on the line. -/
def EndsLine (cs : List Char) : Prop := ∀ c, cs.head? = some c → c = '\n'

/-- A text and what follows it do not cut a line break apart. -/
def KeepsBreak (before after : List Char) : Prop := ¬ (before.getLast? = some '\r' ∧ EndsLine after)

/-- The location `l` lies at `offset` in the text `cs`, which starts at `start`. -/
def LiesAt (start : Nat) (cs : List Char) (l : Location) (offset : Nat) : Prop :=
  ∃ before after, cs = before ++ after ∧ offset = start + byteLength before ∧
    Location.behind before = l ∧ KeepsBreak before after

section
variable {start line column offset : Nat} {c : Char} {cs before after : List Char}

theorem keepsBreak_nil (after : List Char) : KeepsBreak [] after := by simp [KeepsBreak]

theorem keepsBreak_cons (h : c = '\r' → before = [] → ¬ EndsLine after) :
    KeepsBreak (c :: before) after ↔ KeepsBreak before after := by
  unfold KeepsBreak
  cases before with
  | nil => simpa using h
  | cons d ds => rw [List.getLast?_cons_cons]

open Location

/-- A location of a text is that of its first character, or it lies in the rest. -/
theorem liesAt_cons {l : Location} : LiesAt start (c :: cs) l offset ↔ l = ⟨1, 1⟩ ∧ offset = start ∨
    ∃ before after, cs = before ++ after ∧ offset = start + c.utf8Size + byteLength before ∧
      behind (c :: before) = l ∧ KeepsBreak (c :: before) after := by
  constructor
  · rintro ⟨before, after, he, rfl, rfl, hk⟩
    cases before with
    | nil => exact .inl ⟨rfl, rfl⟩
    | cons d ds =>
      obtain ⟨rfl, rfl⟩ := List.cons.inj he
      exact .inr ⟨ds, after, rfl, by rw [byteLength_cons, Nat.add_assoc], rfl, hk⟩
  · rintro (⟨rfl, rfl⟩ | ⟨before, after, rfl, rfl, rfl, hk⟩)
    · exact ⟨[], _, rfl, rfl, rfl, keepsBreak_nil _⟩
    · exact ⟨c :: before, after, rfl, by rw [byteLength_cons, Nat.add_assoc], rfl, hk⟩

theorem liesAt_nil {l : Location} : LiesAt start [] l offset ↔ l = ⟨1, 1⟩ ∧ offset = start := by
  constructor
  · rintro ⟨before, after, he, rfl, rfl, -⟩
    obtain ⟨rfl, rfl⟩ := List.append_eq_nil_iff.mp he.symm
    exact ⟨rfl, rfl⟩
  · rintro ⟨rfl, rfl⟩
    exact ⟨[], [], rfl, rfl, rfl, keepsBreak_nil []⟩

theorem liesAt_newline_first :
    LiesAt start ('\n' :: cs) ⟨1, column + 1⟩ offset ↔ column = 0 ∧ offset = start := by
  rw [liesAt_cons]
  constructor
  · rintro (⟨hl, rfl⟩ | ⟨before, after, -, -, hb, -⟩)
    · exact ⟨by simpa using hl, rfl⟩
    · have := (behind_pos before).1
      rw [behind_newline_eq.mp hb] at this
      exact absurd this (Nat.lt_irrefl 0)
  · rintro ⟨rfl, rfl⟩
    exact .inl ⟨rfl, rfl⟩

theorem liesAt_newline_later : LiesAt start ('\n' :: cs) ⟨line + 2, column⟩ offset ↔
    LiesAt (start + 1) cs ⟨line + 1, column⟩ offset := by
  have hkeep : ∀ before after, KeepsBreak ('\n' :: before) after ↔ KeepsBreak before after :=
    fun _ _ => keepsBreak_cons fun h => absurd h (by decide)
  have hsize : '\n'.utf8Size = 1 := rfl
  rw [liesAt_cons]
  simp [behind_newline_eq, hkeep, hsize, LiesAt]

theorem liesAt_first (hc : c ≠ '\n') : LiesAt start (c :: cs) ⟨1, 1⟩ offset ↔ offset = start := by
  rw [liesAt_cons]
  constructor
  · rintro (⟨-, rfl⟩ | ⟨before, after, -, -, hb, -⟩)
    · rfl
    · have := (behind_pos before).2
      rw [(behind_cons_eq_first hc).mp hb] at this
      exact absurd this (Nat.lt_irrefl 0)
  · rintro rfl
    exact .inl ⟨rfl, rfl⟩

theorem liesAt_cons_first (hc : c ≠ '\n') : LiesAt start (c :: cs) ⟨1, column + 2⟩ offset ↔
    ¬ (c = '\r' ∧ EndsLine cs) ∧ LiesAt (start + c.utf8Size) cs ⟨1, column + 1⟩ offset := by
  have hkeep : ∀ before after, cs = before ++ after → behind before = ⟨1, column + 1⟩ →
      (KeepsBreak (c :: before) after ↔ ¬ (c = '\r' ∧ EndsLine cs) ∧ KeepsBreak before after) := by
    rintro before after rfl hb
    cases before with
    | nil => simp [KeepsBreak]
    | cons d ds =>
      -- the first line goes on, so a line feed does not follow `c`
      have hd : ¬ EndsLine (d :: ds ++ after) := fun he => by
        obtain rfl := he d rfl
        have := (behind_pos ds).1
        rw [behind_newline_eq.mp hb] at this
        exact absurd this (Nat.lt_irrefl 0)
      rw [keepsBreak_cons fun _ h => by cases h]
      exact ⟨fun hk => ⟨fun hr => hd hr.2, hk⟩, And.right⟩
  rw [liesAt_cons]
  constructor
  · rintro (⟨hl, -⟩ | ⟨before, after, he, ho, hb, hk⟩)
    · simp at hl
    · have hb := (behind_cons_eq_first hc).mp hb
      obtain ⟨hr, hk⟩ := (hkeep before after he hb).mp hk
      exact ⟨hr, before, after, he, ho, hb, hk⟩
  · rintro ⟨hr, before, after, he, ho, hb, hk⟩
    exact .inr ⟨before, after, he, ho, (behind_cons_eq_first hc).mpr hb,
      (hkeep before after he hb).mpr ⟨hr, hk⟩⟩

theorem liesAt_cons_later (hc : c ≠ '\n') : LiesAt start (c :: cs) ⟨line + 2, column⟩ offset ↔
    LiesAt (start + c.utf8Size) cs ⟨line + 2, column⟩ offset := by
  have hkeep : ∀ before after, behind before = ⟨line + 2, column⟩ →
      (KeepsBreak (c :: before) after ↔ KeepsBreak before after) := fun before after hb => by
    refine keepsBreak_cons fun _ he => ?_
    rw [he, behind_nil] at hb
    simp at hb
  rw [liesAt_cons]
  constructor
  · rintro (⟨hl, -⟩ | ⟨before, after, he, ho, hb, hk⟩)
    · simp at hl
    · have hb := (behind_cons_eq_later hc).mp hb
      exact ⟨before, after, he, ho, hb, (hkeep before after hb).mp hk⟩
  · rintro ⟨before, after, he, ho, hb, hk⟩
    exact .inr ⟨before, after, he, ho, (behind_cons_eq_later hc).mpr hb, (hkeep before after hb).mpr hk⟩

end

/-! ### Lines -/

/-- The offset of a line and a column, both counted from zero, in a text that starts at `start`. -/
def lineOffset? (start : Nat) (cs : List Char) (line column : Nat) : Option Nat :=
  (sourceLines start cs)[line]?.bind (·.offsetOf? column)

section Lines
variable {start line column : Nat} {c : Char} {cs : List Char}

theorem exists_sourceLines (start : Nat) (cs : List Char) :
    ∃ l ls, sourceLines start cs = l :: ls ∧ l.start = start ∧ (l.chars = [] ↔ EndsLine cs) := by
  cases cs with
  | nil => exact ⟨_, _, rfl, rfl, by simp [EndsLine]⟩
  | cons c cs =>
    rw [sourceLines]
    by_cases hc : c = '\n'
    · rw [if_pos hc]
      exact ⟨_, _, rfl, rfl, by simp [EndsLine, hc]⟩
    · rw [if_neg hc]
      split
      · exact ⟨_, _, rfl, rfl, by simp [EndsLine, hc]⟩
      · exact ⟨_, _, rfl, rfl, by simp [EndsLine, hc]⟩

theorem sourceLines_cons (hc : c ≠ '\n') {l : SourceLine} {ls : List SourceLine}
    (h : sourceLines (start + c.utf8Size) cs = l :: ls) :
    sourceLines start (c :: cs) = ⟨start, c :: l.chars⟩ :: ls := by
  rw [sourceLines, if_neg hc, h]

theorem lineOffset?_nil :
    lineOffset? start [] line column = if line = 0 ∧ column = 0 then some start else none := by
  cases line <;> cases column <;> simp [lineOffset?, sourceLines, SourceLine.offsetOf?, SourceLine.content]

theorem lineOffset?_newline_zero :
    lineOffset? start ('\n' :: cs) 0 column = if column = 0 then some start else none := by
  cases column <;> simp [lineOffset?, sourceLines, SourceLine.offsetOf?, SourceLine.content]

theorem lineOffset?_newline_succ :
    lineOffset? start ('\n' :: cs) (line + 1) column = lineOffset? (start + 1) cs line column := by
  simp [lineOffset?, sourceLines]

theorem lineOffset?_zero_zero (start : Nat) (cs : List Char) :
    lineOffset? start cs 0 0 = some start := by
  obtain ⟨l, ls, h, hl, -⟩ := exists_sourceLines start cs
  simp [lineOffset?, h, SourceLine.offsetOf?, hl]

theorem content_cons (c : Char) {l : SourceLine} :
    (⟨start, c :: l.chars⟩ : SourceLine).content = if c = '\r' ∧ l.chars = [] then [] else c :: l.content := by
  unfold SourceLine.content
  cases h : l.chars with
  | nil => by_cases hc : c = '\r' <;> simp [hc]
  | cons d ds =>
    rw [List.getLast?_cons_cons, List.dropLast_cons_cons]
    split <;> simp

theorem lineOffset?_cons_zero (hc : c ≠ '\n') : lineOffset? start (c :: cs) 0 (column + 1) =
    open Classical in if c = '\r' ∧ EndsLine cs then none
      else lineOffset? (start + c.utf8Size) cs 0 column := by
  obtain ⟨l, ls, h, hl, he⟩ := exists_sourceLines (start + c.utf8Size) cs
  rw [← he, lineOffset?, lineOffset?, sourceLines_cons hc h, h, List.getElem?_cons_zero,
    List.getElem?_cons_zero, Option.bind_some, Option.bind_some, SourceLine.offsetOf?,
    SourceLine.offsetOf?, content_cons, hl]
  split_ifs <;> simp_all [Nat.add_assoc]

theorem lineOffset?_cons_succ (hc : c ≠ '\n') : lineOffset? start (c :: cs) (line + 1) column =
    lineOffset? (start + c.utf8Size) cs (line + 1) column := by
  obtain ⟨l, ls, h, -⟩ := exists_sourceLines (start + c.utf8Size) cs
  simp [lineOffset?, sourceLines_cons hc h, h]

/-- **Offsets of lines and columns** are those of the locations of a text. -/
theorem lineOffset?_eq_some {offset : Nat} : lineOffset? start cs line column = some offset ↔
    LiesAt start cs ⟨line + 1, column + 1⟩ offset := by
  induction cs generalizing start line column with
  | nil =>
    rw [lineOffset?_nil, liesAt_nil]
    simp [eq_comm]
  | cons c cs ih =>
    by_cases hc : c = '\n'
    · subst hc
      cases line with
      | zero =>
        rw [lineOffset?_newline_zero, liesAt_newline_first]
        simp [eq_comm]
      | succ line => rw [lineOffset?_newline_succ, liesAt_newline_later, ih]
    · cases line with
      | zero =>
        cases column with
        | zero =>
          rw [lineOffset?_zero_zero, liesAt_first hc]
          simp [eq_comm]
        | succ column =>
          rw [lineOffset?_cons_zero hc, liesAt_cons_first hc, ← ih]
          simp
      | succ line => rw [lineOffset?_cons_succ hc, liesAt_cons_later hc, ih]

end Lines

/-- **The offset of a location** in a document: the location lies there, which has a line and a column. -/
theorem Document.offsetOf?_eq_some {d : Document} {l : Location} {offset : Nat} :
    d.offsetOf? l = some offset ↔ LiesAt 0 d.source.toList l offset := by
  obtain ⟨line, column⟩ := l
  unfold offsetOf?
  split_ifs with h
  · constructor
    · intro h
      cases h
    · rintro ⟨before, after, -, -, hb, -⟩
      have hpos := Location.behind_pos before
      rw [hb] at hpos
      simp only at h hpos
      omega
  · obtain ⟨line, rfl⟩ : ∃ n, line = n + 1 := ⟨line - 1, by simp only at h; omega⟩
    obtain ⟨column, rfl⟩ : ∃ n, column = n + 1 := ⟨column - 1, by simp only at h; omega⟩
    exact lineOffset?_eq_some

/-! ### The order of locations -/

namespace Location

/-- The location `l` comes before `r`: on a line further up, or further to the left on the same line. -/
def Precedes (l r : Location) : Prop := l.line < r.line ∨ l.line = r.line ∧ l.column < r.column

variable {l m r : Location} {before after before' after' : List Char}

theorem not_precedes_self (l : Location) : ¬ l.Precedes l := by
  unfold Precedes
  omega

theorem Precedes.trans (h : l.Precedes m) (h' : m.Precedes r) : l.Precedes r := by
  unfold Precedes at *
  omega

theorem precedes_step (l : Location) (c : Char) : l.Precedes (l.step c) := by
  unfold step
  split
  · exact .inl (Nat.lt_succ_self _)
  · exact .inr ⟨rfl, Nat.lt_succ_self _⟩

/-- A longer text ends at a later location. -/
theorem precedes_behind (before : List Char) {cs : List Char} (h : cs ≠ []) :
    (behind before).Precedes (behind (before ++ cs)) := by
  induction cs using List.reverseRecOn with
  | nil => exact absurd rfl h
  | append_singleton cs c ih =>
    have hstep := precedes_step (behind (before ++ cs)) c
    rw [← List.append_assoc, behind_append_singleton]
    by_cases hcs : cs = []
    · rwa [hcs, List.append_nil] at hstep ⊢
    · exact (ih hcs).trans hstep

/-- **The fronts of a text** end in the order of their lengths. -/
theorem precedes_behind_iff (h : before ++ after = before' ++ after') :
    (behind before).Precedes (behind before') ↔ byteLength before < byteLength before' := by
  have hlonger : ∀ (cs : List Char) {ds}, ds ≠ [] → byteLength cs < byteLength (cs ++ ds) := by
    intro cs ds hds
    have hpos := byteLength_pos hds
    rw [byteLength_append]
    omega
  rcases List.append_eq_append_iff.mp h with ⟨cs, rfl, -⟩ | ⟨cs, rfl, -⟩ <;> by_cases hcs : cs = []
  · rw [hcs, List.append_nil]
    exact iff_of_false (not_precedes_self _) (Nat.lt_irrefl _)
  · exact iff_of_true (precedes_behind before hcs) (hlonger before hcs)
  · rw [hcs, List.append_nil]
    exact iff_of_false (not_precedes_self _) (Nat.lt_irrefl _)
  · have hle := Nat.le_of_lt (hlonger before' hcs)
    exact iff_of_false (fun hp => not_precedes_self _ (hp.trans (precedes_behind before' hcs)))
      (Nat.not_lt.mpr hle)

end Location

theorem eq_of_byteLength {before after before' after' : List Char} (h : before ++ after = before' ++ after')
    (hl : byteLength before = byteLength before') : before = before' := by
  have hnil : ∀ {cs ds : List Char}, byteLength (cs ++ ds) = byteLength cs → ds = [] := fun {cs ds} he => by
    by_contra hds
    have hpos := byteLength_pos hds
    rw [byteLength_append] at he
    omega
  rcases List.append_eq_append_iff.mp h with ⟨cs, rfl, -⟩ | ⟨cs, rfl, -⟩
  · rw [hnil hl.symm, List.append_nil]
  · rw [hnil hl, List.append_nil]

/-- The places of a text where a location lies: all but those in front of a line feed or the end that a carriage
return stands directly before. -/
theorem exists_liesAt {cs : List Char} {offset : Nat} : (∃ l, LiesAt 0 cs l offset) ↔
    (∃ before after, cs = before ++ after ∧ offset = byteLength before) ∧
      (∀ before after, cs = before ++ '\r' :: '\n' :: after → offset ≠ byteLength (before ++ ['\r'])) ∧
        ∀ before, cs = before ++ ['\r'] → offset ≠ byteLength cs := by
  constructor
  · rintro ⟨l, before, after, hcs, ho, -, hkeep⟩
    rw [Nat.zero_add] at ho
    refine ⟨⟨before, after, hcs, ho⟩, fun left right hleft he => ?_, fun left hleft he => ?_⟩
    · have hsplit : before ++ after = (left ++ ['\r']) ++ '\n' :: right := by rw [← hcs, hleft]; simp
      obtain rfl := eq_of_byteLength hsplit (ho.symm.trans he)
      have hafter := List.append_cancel_left hsplit
      exact hkeep ⟨List.getLast?_concat, fun c hc => by rw [hafter] at hc; exact (Option.some.inj hc).symm⟩
    · have hsplit : before ++ after = (left ++ ['\r']) ++ [] := by rw [← hcs, hleft, List.append_nil]
      obtain rfl := eq_of_byteLength hsplit (by rw [← ho, he, hleft])
      obtain rfl := List.append_cancel_left hsplit
      exact hkeep ⟨List.getLast?_concat, fun c hc => by cases hc⟩
  · rintro ⟨⟨before, after, hcs, ho⟩, hbreak, hend⟩
    refine ⟨_, before, after, hcs, by rw [Nat.zero_add, ho], rfl, fun ⟨hreturn, hline⟩ => ?_⟩
    obtain ⟨left, rfl⟩ := List.getLast?_eq_some_iff.mp hreturn
    cases after with
    | nil =>
      rw [List.append_nil] at hcs
      exact hend left hcs (by rw [ho, hcs])
    | cons c right =>
      obtain rfl := hline c rfl
      exact hbreak left right (by rw [hcs]; simp) ho

/-- **Locations and offsets are in the same order.** Of two locations that have offsets the one that comes first
has the smaller offset, so no two locations share an offset. The offsets are those between two characters of the
source and at its ends, but not that of a line feed directly behind a carriage return, nor that of the end if
the source ends in a carriage return. -/
theorem Document.offsetOf?_in_order (d : Document) :
    (∀ l r offset offset', d.offsetOf? l = some offset → d.offsetOf? r = some offset' →
      (l.Precedes r ↔ offset < offset') ∧ (offset = offset' → l = r)) ∧
    ∀ offset, (∃ l, d.offsetOf? l = some offset) ↔
      (∃ before after, d.source.toList = before ++ after ∧ offset = byteLength before) ∧
        (∀ before after, d.source.toList = before ++ '\r' :: '\n' :: after →
          offset ≠ byteLength (before ++ ['\r'])) ∧
        ∀ before, d.source.toList = before ++ ['\r'] → offset ≠ byteLength d.source.toList := by
  refine ⟨fun l r offset offset' hl hr => ?_, fun offset => ?_⟩
  · obtain ⟨before, after, hcs, rfl, rfl, -⟩ := offsetOf?_eq_some.mp hl
    obtain ⟨before', after', hcs', rfl, rfl, -⟩ := offsetOf?_eq_some.mp hr
    have hsplit := hcs.symm.trans hcs'
    simp only [Nat.zero_add]
    exact ⟨Location.precedes_behind_iff hsplit, fun he => by rw [eq_of_byteLength hsplit he]⟩
  · simp only [offsetOf?_eq_some]
    exact exists_liesAt

end JsonSelect
