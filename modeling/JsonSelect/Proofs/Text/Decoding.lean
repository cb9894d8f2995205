import JsonSelect.Proofs.Text.Spelling

/-! # What the contents of a string literal denote

Contents denote a text from left to right: a plain character stands for itself, an escape for its character, and
two hexadecimal escapes for one character together if they are a surrogate pair (`Denotes`). Two things keep
contents from denoting a text: a control character that stands for itself, and half of a surrogate pair
without its other half right beside it (`Faulty`). Decoding follows the one and refuses the other
(`meaning_of_contents`), so it refuses nothing else of what the grammar of contents lets through. -/

namespace JsonSelect.Text

variable {ps : List Piece} {raw cs : List Char} {p : Piece}

/-! ### What pieces denote -/

/-- The characters that a backslash may stand before on their own, each with what it denotes then. -/
def shortEscapes : List (Char × Char) :=
  [('\\', '\\'), ('/', '/'), ('"', '"'), ('b', '\x08'), ('f', '\x0c'), ('n', '\n'), ('r', '\r'), ('t', '\t')]

/-- The code point of a surrogate pair. -/
def pairPoint (leading trailing : Nat) : Nat :=
  0x10000 + (leading - 0xD800) * 0x400 + (trailing - 0xDC00)

/-- The pieces denote the text `cs`. -/
inductive Denotes : List Piece → List Char → Prop
  | nil : Denotes [] []
  | plain {c : Char} {ps : List Piece} {cs : List Char} (hc : 0x20 ≤ c.toNat) (h : Denotes ps cs) :
      Denotes (.plain c :: ps) (c :: cs)
  | short {letter c : Char} {ps : List Piece} {cs : List Char} (hc : (letter, c) ∈ shortEscapes)
      (h : Denotes ps cs) : Denotes (.short letter :: ps) (c :: cs)
  | unicode {unit : Nat} {c : Char} {ps : List Piece} {cs : List Char} (hc : c.toNat = unit)
      (h : Denotes ps cs) : Denotes (.unicode unit :: ps) (c :: cs)
  | pair {leading trailing : Nat} {c : Char} {ps : List Piece} {cs : List Char}
      (hl : isLeading leading = true) (ht : isTrailing trailing = true)
      (hc : c.toNat = pairPoint leading trailing) (h : Denotes ps cs) :
      Denotes (.unicode leading :: .unicode trailing :: ps) (c :: cs)

/-- Between the pieces `before` and `after` the surrogate `unit` lacks its other half: it should complete the
piece right before it, or be completed by the piece right behind it. -/
def Unpaired (before : List Piece) (unit : Nat) (after : List Piece) : Prop :=
  isTrailing unit = true ∧ (∀ l, before.getLast? = some (.unicode l) → isLeading l = false) ∨
    isLeading unit = true ∧ ∀ t, after.head? = some (.unicode t) → isTrailing t = false

/-- Among the pieces is a control character that stands for itself, or an unpaired surrogate. -/
inductive Faulty (ps : List Piece) : Prop
  | control {c : Char} (h : .plain c ∈ ps) (hc : c.toNat < 0x20)
  | unpaired {before after : List Piece} {unit : Nat} (h : ps = before ++ .unicode unit :: after)
      (hu : Unpaired before unit after)

/-! ### Surrogates -/

theorem isLeading_iff {unit : Nat} : isLeading unit = true ↔ 0xD800 ≤ unit ∧ unit ≤ 0xDBFF := by
  simp only [isLeading, Bool.and_eq_true, decide_eq_true_eq]

theorem isTrailing_iff {unit : Nat} : isTrailing unit = true ↔ 0xDC00 ≤ unit ∧ unit ≤ 0xDFFF := by
  simp only [isTrailing, Bool.and_eq_true, decide_eq_true_eq]

theorem not_isTrailing_of_isLeading {unit : Nat} (h : isLeading unit = true) : isTrailing unit = false := by
  rw [isLeading_iff] at h
  rw [← Bool.not_eq_true, isTrailing_iff]
  omega

/-- No character is half of a surrogate pair. -/
theorem not_surrogate (c : Char) : isLeading c.toNat = false ∧ isTrailing c.toNat = false := by
  have hc : c.toNat < 0xD800 ∨ 0xDFFF < c.toNat ∧ c.toNat < 0x110000 := c.valid
  rw [← Bool.not_eq_true, ← Bool.not_eq_true, isLeading_iff, isTrailing_iff]
  omega

/-- A code point outside the surrogates is that of a character. -/
theorem toNat_ofNat {n : Nat} (h : n < 0xD800 ∨ 0xDFFF < n ∧ n < 0x110000) : (Char.ofNat n).toNat = n := by
  have hn : n.isValidChar := h
  rw [Char.ofNat, dif_pos hn]
  rfl

/-- Four hexadecimal digits are worth less than 65536. -/
theorem unitOf_lt {a b c d : Char} {unit : Nat} (h : unitOf? a b c d = some unit) : unit < 0x10000 := by
  have hdigit : ∀ {c n}, hexValue? c = some n → n < 16 := fun {c n} hc => by
    have hall : ("0123456789abcdefABCDEF".toList.all fun c => (hexValue? c).all (· < 16)) = true := by decide
    have hlt := List.all_eq_true.mp hall c (mem_of_hexValue hc)
    rw [hc] at hlt
    simpa using hlt
  simp only [unitOf?, Option.bind_eq_bind, Option.bind_eq_some_iff] at h
  obtain ⟨n₁, h₁, n₂, h₂, n₃, h₃, n₄, h₄, h⟩ := h
  have hlt₁ := hdigit h₁
  have hlt₂ := hdigit h₂
  have hlt₃ := hdigit h₃
  have hlt₄ := hdigit h₄
  have hunit : ((n₁ * 16 + n₂) * 16 + n₃) * 16 + n₄ = unit := Option.some.inj h
  omega

theorem toNat_pairChar {leading trailing : Nat} (hl : isLeading leading = true)
    (ht : isTrailing trailing = true) : (pairChar leading trailing).toNat = pairPoint leading trailing := by
  rw [isLeading_iff] at hl
  rw [isTrailing_iff] at ht
  refine toNat_ofNat (.inr ?_)
  omega

/-- What a backslash and a character denote, by the table. -/
theorem mem_shortEscapes {letter : Char} (h : isShortEscape letter = true) :
    (letter, shortMeaning letter) ∈ shortEscapes := by
  have hmem : letter ∈ "\\/\"bfnrt".toList := by simpa [isShortEscape] using h
  have hall : ("\\/\"bfnrt".toList.all fun c => (c, shortMeaning c) ∈ shortEscapes) = true := by decide
  simpa using List.all_eq_true.mp hall letter hmem

theorem shortMeaning_of_mem {letter c : Char} (h : (letter, c) ∈ shortEscapes) : c = shortMeaning letter := by
  have hall : (shortEscapes.all fun e => e.2 = shortMeaning e.1) = true := by decide
  simpa using List.all_eq_true.mp hall (letter, c) h

/-! ### Faults of pieces -/

theorem Unpaired.tail {before after : List Piece} {unit : Nat} (h : Unpaired (p :: before) unit after) :
    Unpaired before unit after := by
  cases before with
  | nil => exact h.imp_left fun ht => ⟨ht.1, fun l hl => by cases hl⟩
  | cons q before => exact h

/-- A first piece that is an unpaired surrogate. -/
theorem Faulty.head {unit : Nat} (h : Unpaired [] unit ps) : Faulty (.unicode unit :: ps) :=
  .unpaired (List.nil_append _).symm h

/-- Behind a piece that does not begin a pair there are the faults that there are without it. -/
theorem Faulty.cons (h : Faulty ps) (hp : ∀ l, p = .unicode l → isLeading l = false) : Faulty (p :: ps) := by
  cases h with
  | control hmem hc => exact .control (List.mem_cons_of_mem _ hmem) hc
  | @unpaired before after unit he hu =>
    have hsplit : p :: ps = (p :: before) ++ .unicode unit :: after := by rw [he]; rfl
    refine .unpaired hsplit ?_
    cases before with
    | nil => exact hu.imp_left fun ht => ⟨ht.1, fun l hl => hp l (by simpa using hl)⟩
    | cons q before => exact hu

/-- Behind a pair there are the faults that there are without it. -/
theorem Faulty.behind_pair {l t : Nat} (h : Faulty ps) (ht : isLeading t = false) :
    Faulty (.unicode l :: .unicode t :: ps) := by
  cases h with
  | control hmem hc => exact .control (List.mem_cons_of_mem _ (List.mem_cons_of_mem _ hmem)) hc
  | @unpaired before after unit he hu =>
    have hsplit : .unicode l :: .unicode t :: ps =
        (.unicode l :: .unicode t :: before) ++ .unicode unit :: after := by rw [he]; rfl
    refine .unpaired hsplit ?_
    cases before with
    | nil =>
      refine hu.imp_left fun htrailing => ⟨htrailing.1, fun l hl => ?_⟩
      obtain rfl : t = l := by simpa using hl
      exact ht
    | cons q before => exact hu

/-- A piece that is neither a control character nor a surrogate is no fault. -/
theorem Faulty.of_cons (h : Faulty (p :: ps)) (hplain : ∀ c, p = .plain c → 0x20 ≤ c.toNat)
    (hunicode : ∀ unit, p = .unicode unit → isLeading unit = false ∧ isTrailing unit = false) : Faulty ps := by
  cases h with
  | @control c hmem hc =>
    rcases List.mem_cons.mp hmem with hp | hmem
    · have := hplain c hp.symm
      omega
    · exact .control hmem hc
  | @unpaired before after unit he hu =>
    cases before with
    | nil =>
      obtain ⟨rfl, rfl⟩ := List.cons.inj he
      obtain ⟨hl, ht⟩ := hunicode unit rfl
      rcases hu with ⟨hu, -⟩ | ⟨hu, -⟩
      · rw [ht] at hu
        cases hu
      · rw [hl] at hu
        cases hu
    | cons q before =>
      obtain ⟨rfl, rfl⟩ := List.cons.inj he
      exact .unpaired rfl hu.tail

/-- A pair is no fault. -/
theorem Faulty.of_pair {l t : Nat} (hl : isLeading l = true) (ht : isTrailing t = true)
    (h : Faulty (.unicode l :: .unicode t :: ps)) : Faulty ps := by
  cases h with
  | control hmem hc => exact .control (by simpa using hmem) hc
  | @unpaired before after unit he hu =>
    rcases before with _ | ⟨p, _ | ⟨q, before⟩⟩ <;>
      simp only [List.nil_append, List.cons_append, List.cons.injEq, Piece.unicode.injEq] at he
    · -- the leading half: the other one follows it
      obtain ⟨rfl, rfl⟩ := he
      rcases hu with ⟨hu, -⟩ | ⟨-, hu⟩
      · rw [not_isTrailing_of_isLeading hl] at hu
        cases hu
      · rw [hu t rfl] at ht
        cases ht
    · -- the trailing half: the other one stands before it
      obtain ⟨rfl, rfl, rfl⟩ := he
      rcases hu with ⟨-, hu⟩ | ⟨hu, -⟩
      · rw [hu l rfl] at hl
        cases hl
      · rw [not_isTrailing_of_isLeading hu] at ht
        cases ht
    · obtain ⟨rfl, rfl, rfl⟩ := he
      exact .unpaired rfl hu.tail.tail

/-- **Pieces that denote a text have no fault.** -/
theorem Denotes.not_faulty (h : Denotes ps cs) : ¬ Faulty ps := by
  induction h with
  | nil =>
    rintro (⟨hmem, -⟩ | ⟨he, -⟩)
    · cases hmem
    · simp at he
  | plain hc _ ih =>
    refine fun hf => ih (hf.of_cons (fun c he => ?_) fun unit he => ?_)
    · cases he
      exact hc
    · cases he
  | short _ _ ih => exact fun hf => ih (hf.of_cons (fun c he => by cases he) fun unit he => by cases he)
  | @unicode unit c _ _ hc _ ih =>
    refine fun hf => ih (hf.of_cons (fun c he => by cases he) fun unit he => ?_)
    cases he
    exact hc ▸ not_surrogate c
  | pair hl ht _ _ ih => exact fun hf => ih (hf.of_pair hl ht)

/-- **Pieces denote one text.** -/
theorem Denotes.unique {ds : List Char} (h : Denotes ps cs) (h' : Denotes ps ds) : cs = ds := by
  induction h generalizing ds with
  | nil =>
    cases h'
    rfl
  | plain _ _ ih =>
    cases h' with
    | plain _ h' => rw [ih h']
  | short hc _ ih =>
    cases h' with
    | short hc' h' => rw [shortMeaning_of_mem hc, shortMeaning_of_mem hc', ih h']
  | @unicode unit c _ _ hc _ ih =>
    cases h' with
    | unicode hc' h' => rw [Char.toNat_inj.mp (hc.trans hc'.symm), ih h']
    | pair hl =>
      rw [← hc, (not_surrogate c).1] at hl
      cases hl
  | pair hl _ hc _ ih =>
    cases h' with
    | @unicode _ c _ _ hc' =>
      rw [← hc', (not_surrogate c).1] at hl
      cases hl
    | pair _ _ hc' h' => rw [Char.toNat_inj.mp (hc.trans hc'.symm), ih h']

/-! ### Decoding -/

theorem spells_tail (h : Spells (p :: ps) raw) : ∃ raw', Spells ps raw' := by
  cases h with
  | plain _ _ h => exact ⟨_, h⟩
  | short _ h => exact ⟨_, h⟩
  | unicode _ h => exact ⟨_, h⟩

/-- **Pieces of contents** are decoded to what they denote, or they have a fault. -/
theorem decodeFrom_cases (h : Spells ps raw) (column : Nat) :
    (∃ cs, decodeFrom column ps = .ok cs ∧ Denotes ps cs) ∨
      ∃ e, decodeFrom column ps = .error e ∧ Faulty ps := by
  fun_induction decodeFrom column ps generalizing raw with
  | case1 => exact .inl ⟨[], rfl, .nil⟩
  | case2 column c ps hc => exact .inr ⟨_, rfl, .control (List.mem_cons_self ..) hc⟩
  | case3 column c ps hc ih =>
    obtain ⟨_, htail⟩ := spells_tail h
    rcases ih htail with ⟨cs, hd, hcs⟩ | ⟨e, hd, hf⟩
    · exact .inl ⟨c :: cs, by rw [hd]; rfl, .plain (Nat.not_lt.mp hc) hcs⟩
    · exact .inr ⟨e, by rw [hd]; rfl, hf.cons fun l he => by cases he⟩
  | case4 column letter ps ih =>
    obtain ⟨_, htail⟩ := spells_tail h
    rcases ih htail with ⟨cs, hd, hcs⟩ | ⟨e, hd, hf⟩
    · cases h with
      | short hletter _ => exact .inl ⟨_, by rw [hd]; rfl, .short (mem_shortEscapes hletter) hcs⟩
    · exact .inr ⟨e, by rw [hd]; rfl, hf.cons fun l he => by cases he⟩
  | case5 column unit ps ht =>
    exact .inr ⟨_, rfl, .head (.inl ⟨ht, fun l hl => by cases hl⟩)⟩
  | case6 column leading _ hl trailing ps ht ih =>
    obtain ⟨_, htail⟩ := spells_tail h
    obtain ⟨_, htail⟩ := spells_tail htail
    have hnot : isLeading trailing = false := by
      rw [← Bool.not_eq_true]
      intro hl'
      rw [not_isTrailing_of_isLeading hl'] at ht
      cases ht
    rcases ih htail with ⟨cs, hd, hcs⟩ | ⟨e, hd, hf⟩
    · exact .inl ⟨_, by rw [hd]; rfl, .pair hl ht (toNat_pairChar hl ht) hcs⟩
    · exact .inr ⟨e, by rw [hd]; rfl, hf.behind_pair hnot⟩
  | case7 column leading _ hl unit ps ht =>
    refine .inr ⟨_, rfl, .head (.inr ⟨hl, fun t he => ?_⟩)⟩
    obtain rfl : unit = t := by simpa using he
    exact Bool.eq_false_iff.mpr ht
  | case8 column leading _ hl ps hnext =>
    refine .inr ⟨_, rfl, .head (.inr ⟨hl, fun t he => ?_⟩)⟩
    obtain ⟨rest, rfl⟩ := List.head?_eq_some_iff.mp he
    exact (hnext t rest rfl).elim
  | case9 column unit ps ht hl ih =>
    obtain ⟨_, htail⟩ := spells_tail h
    rcases ih htail with ⟨cs, hd, hcs⟩ | ⟨e, hd, hf⟩
    · cases h with
      | unicode hu _ =>
        have hlt := unitOf_lt hu
        have hunit : (Char.ofNat unit).toNat = unit := by
          rw [isLeading_iff] at hl
          rw [isTrailing_iff] at ht
          exact toNat_ofNat (by omega)
        exact .inl ⟨_, by rw [hd]; rfl, .unicode hunit hcs⟩
    · refine .inr ⟨e, by rw [hd]; rfl, hf.cons fun l he => ?_⟩
      cases he
      exact Bool.eq_false_iff.mpr hl

/-- **What contents denote.** Decoding refuses contents exactly if a control character stands for itself in
them or a surrogate is unpaired, and otherwise gives the text that their pieces denote. -/
theorem meaning_of_contents (h : Spells ps raw) : ((∃ e, meaning raw = .error e) ↔ Faulty ps) ∧
    ∀ cs, meaning raw = .ok cs ↔ Denotes ps cs := by
  rw [meaning_of_spells h, decode]
  rcases decodeFrom_cases h 1 with ⟨cs, hd, hcs⟩ | ⟨e, hd, hf⟩
  · refine ⟨⟨?_, fun hf => absurd hf hcs.not_faulty⟩, fun ds => ⟨?_, fun hds => ?_⟩⟩
    · rintro ⟨e, he⟩
      rw [hd] at he
      cases he
    · intro he
      rw [hd] at he
      cases he
      exact hcs
    · rw [hd, hcs.unique hds]
  · refine ⟨⟨fun _ => hf, fun _ => ⟨e, hd⟩⟩, fun ds => ⟨?_, fun hds => absurd hf hds.not_faulty⟩⟩
    intro he
    rw [hd] at he
    cases he

/-- Of two leading surrogates and a trailing one the first is unpaired, though the others are a pair. -/
theorem meaning_of_contents_two_leading :
    Spells [.unicode 0xD83D, .unicode 0xD83D, .unicode 0xDE00] "\\ud83d\\ud83d\\ude00".toList ∧
      (∃ e, meaning "\\ud83d\\ud83d\\ude00".toList = .error e) ∧
      Spells [.unicode 0xD83D, .unicode 0xDE00] "\\ud83d\\ude00".toList ∧
      meaning "\\ud83d\\ude00".toList = .ok ['😀'] := by
  have htwo : Spells [.unicode 0xD83D, .unicode 0xD83D, .unicode 0xDE00] "\\ud83d\\ud83d\\ude00".toList :=
    .unicode rfl (.unicode rfl (.unicode rfl .nil))
  have hpair : Spells [.unicode 0xD83D, .unicode 0xDE00] "\\ud83d\\ude00".toList :=
    .unicode rfl (.unicode rfl .nil)
  have hfaulty : Faulty [.unicode 0xD83D, .unicode 0xD83D, .unicode 0xDE00] :=
    .head (.inr ⟨by decide, fun t ht => by cases ht; decide⟩)
  have hdenotes : Denotes [.unicode 0xD83D, .unicode 0xDE00] ['😀'] := .pair (by decide) (by decide) rfl .nil
  exact ⟨htwo, (meaning_of_contents htwo).1.mpr hfaulty, hpair, ((meaning_of_contents hpair).2 _).mpr hdenotes⟩

end JsonSelect.Text
