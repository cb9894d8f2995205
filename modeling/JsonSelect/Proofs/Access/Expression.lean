import JsonSelect.Access
import JsonSelect.Proofs.Reading.Scalars
import JsonSelect.Proofs.Tree.Paths

/-! # Reading access expressions

`accessExpression` reads an expression of any language without knowing which: an identifier, and accesses
behind it. Digits between square brackets or in the call of a getter are an index; a string literal there,
or an identifier behind a point, is a key.

Each segment of a path is read as `asRead` says, from its text alone (`reads_segment`). So an expression is
read back as its receiver and the accessors of its path (`readBack_expression`). -/

namespace JsonSelect.Reading

open Rule Written Text

/-! ### The grammar of expressions -/

/-- An identifier. -/
def identifier : Rule String := do
  let c ← one startsIdentifier
  let cs ← run continuesIdentifier
  return String.ofList (c :: cs)

/-- What stands between the brackets of an access. -/
def operand : Rule Accessor :=
  (do let ds ← digits; return .index (digitsValue ds))
  <|> (do let s ← stringLiteral; return .key s)

/-- An access. -/
def accessor : Rule Accessor :=
  (do symbol '['; let a ← operand; symbol ']'; return a)
  <|> (do keyword ".get(".toList; let a ← operand; symbol ')'; return a)
  <|> (do symbol '.'; let s ← identifier; return .key s)

/-- Accesses one after the other, no more than there are characters in `bound`. -/
def accessors : List Char → Rule (List Accessor)
  | [] => return []
  | _ :: bound => do
    match ← optional accessor with
    | none => return []
    | some a =>
      let more ← accessors bound
      return a :: more

/-- A receiver and the accesses behind it. -/
def accessExpression : Rule (String × List Accessor) := do
  let receiver ← identifier
  let as ← fun k => accessors k.ahead k
  endOfInput
  return (receiver, as)

/-- The receiver and the accessors of an expression. -/
def readBack? (code : String) : Option (String × List Accessor) :=
  (accessExpression (Cursor.start code.toList)).result.map (·.1)

/-- The accessor that a segment is read as in an expression. -/
def asRead (segment : String) : Accessor :=
  match shape segment with
  | .index => .index (digitsValue segment.toList)
  | .key => .key segment

theorem shape_eq_index {s : String} : shape s = .index ↔ Digits s.toList := by
  unfold shape Digits
  simp only
  split
  · next h => simpa using h
  · next h => simpa using h

/-! ### Parts of an access -/

variable {k k' : Cursor}

theorem reads_identifier {s : String} (hs : isIdentifier s = true) (h : k.Passes s.toList k')
    (ho : StartsOutside continuesIdentifier k'.ahead) : identifier.Reads k s k' := by
  unfold isIdentifier at hs
  have hl : String.ofList s.toList = s := String.ofList_toList
  cases hcs : s.toList with
  | nil => simp [hcs] at hs
  | cons c cs =>
    rw [hcs] at h hl
    simp only [hcs, Bool.and_eq_true, List.all_eq_true] at hs
    obtain ⟨k₁, h₁, h₂⟩ := Cursor.passes_cons.mp h
    simp only [identifier, reads_bind, reads_one, reads_run, reads_pure]
    exact ⟨c, k₁, ⟨hs.1, h₁⟩, cs, k', ⟨h₂, hs.2, ho⟩, hl.symm, rfl⟩

theorem reads_operand_digits {ds : List Char} (hd : Digits ds) (h : k.Passes ds k')
    (ho : StartsOutside Char.isDigit k'.ahead) : operand.Reads k (.index (digitsValue ds)) k' := by
  refine reads_orElse.mpr (.inl (reads_bind.mpr ⟨ds, k', reads_digits.mpr ⟨hd, h, ho⟩, ?_⟩))
  exact reads_pure.mpr ⟨rfl, rfl⟩

/-- A quoted text is a string literal. -/
theorem reads_quoted {s : String} (h : k.Passes (quoteChars s.toList) k') :
    stringLiteral.Reads k s k' := by
  have hm := meaning_escaped s.toList
  have hs : s = denoted (s.toList.flatMap escaped) := by
    rw [denoted, hm]
    exact String.ofList_toList.symm
  exact reads_stringLiteral.mpr ⟨_, ⟨_, spells_escaped s.toList⟩, ⟨_, hm⟩, hs, h⟩

theorem reads_operand_quoted {s : String} (h : k.Passes (quoteChars s.toList) k') :
    operand.Reads k (.key s) k' := by
  have hm : digits.Misses k := by
    refine misses_bind.mpr (.inl (misses_one.mpr fun c hc => ?_))
    rw [h.ahead] at hc
    cases hc
    decide
  refine reads_orElse.mpr (.inr ⟨misses_bind.mpr (.inl hm), ?_⟩)
  exact reads_bind.mpr ⟨s, k', reads_quoted h, reads_pure.mpr ⟨rfl, rfl⟩⟩

/-! ### Accesses -/

/-- The text of an operand. -/
inductive Operand : Accessor → List Char → Prop
  | digits {ds : List Char} (hd : Digits ds) : Operand (.index (digitsValue ds)) ds
  | quoted (s : String) : Operand (.key s) (quoteChars s.toList)

variable {a : Accessor} {cs : List Char}

theorem reads_operand (h : Operand a cs) (hp : k.Passes cs k')
    (ho : StartsOutside Char.isDigit k'.ahead) : operand.Reads k a k' := by
  cases h with
  | digits hd => exact reads_operand_digits hd hp ho
  | quoted s => exact reads_operand_quoted hp

/-- An operand ends where a closing bracket stands. -/
theorem reads_enclosed {r : Char} (hr : r.isDigit = false) (h : Operand a cs)
    (hp : k.Passes (cs ++ [r]) k') :
    (do let a ← operand; symbol r; return a : Rule Accessor).Reads k a k' := by
  obtain ⟨k₁, h₁, h₂⟩ := Cursor.passes_append.mp hp
  have ho : StartsOutside Char.isDigit k₁.ahead := by
    rw [h₂.ahead]
    exact startsOutside_cons.mpr hr
  refine reads_bind.mpr ⟨a, k₁, reads_operand h h₁ ho, reads_bind.mpr ⟨(), k', ?_, ?_⟩⟩
  · exact reads_symbol.mpr h₂
  · exact reads_pure.mpr ⟨rfl, rfl⟩

theorem reads_accessor_brackets (h : Operand a cs) (hp : k.Passes ('[' :: (cs ++ [']'])) k') :
    accessor.Reads k a k' := by
  obtain ⟨k₁, h₁, h₂⟩ := Cursor.passes_cons.mp hp
  refine reads_orElse.mpr (.inl (reads_bind.mpr ⟨(), k₁, reads_symbol.mpr h₁, ?_⟩))
  exact reads_enclosed (by decide) h h₂

/-- No access that starts with a point starts with a square bracket. -/
theorem misses_square (h : k.ahead.head? = some '.') :
    (do symbol '['; let a ← operand; symbol ']'; return a : Rule Accessor).Misses k :=
  misses_bind.mpr (.inl (misses_symbol.mpr (by rw [h]; decide)))

theorem reads_accessor_getter (h : Operand a cs)
    (hp : k.Passes (".get(".toList ++ (cs ++ [')'])) k') : accessor.Reads k a k' := by
  obtain ⟨k₁, h₁, h₂⟩ := Cursor.passes_append.mp hp
  have hk : k.ahead.head? = some '.' := by
    rw [h₁.ahead]
    rfl
  refine reads_orElse.mpr (.inr ⟨misses_square hk, reads_orElse.mpr (.inl ?_)⟩)
  refine reads_bind.mpr ⟨(), k₁, reads_keyword.mpr h₁, ?_⟩
  exact reads_enclosed (by decide) h h₂

theorem continuesIdentifier_of_mem {s : String} (hs : isIdentifier s = true) :
    ∀ c ∈ s.toList, continuesIdentifier c = true := by
  unfold isIdentifier at hs
  cases hcs : s.toList with
  | nil => simp
  | cons c cs =>
    simp only [hcs, Bool.and_eq_true, List.all_eq_true] at hs
    have hc : continuesIdentifier c = true := by simp [continuesIdentifier, hs.1]
    exact List.forall_mem_cons.mpr ⟨hc, hs.2⟩

/-- The text cannot continue an identifier or make it a call. -/
def EndsName (cs : List Char) : Prop := StartsOutside (fun c => continuesIdentifier c || c = '(') cs

theorem reads_accessor_point {s : String} (hs : isIdentifier s = true)
    (hp : k.Passes ('.' :: s.toList) k') (ho : EndsName k'.ahead) : accessor.Reads k (.key s) k' := by
  obtain ⟨k₁, h₁, h₂⟩ := Cursor.passes_cons.mp hp
  have hk : k.ahead.head? = some '.' := by
    rw [h₁.ahead]
    rfl
  have hall := continuesIdentifier_of_mem hs
  have hname : StartsOutside continuesIdentifier k'.ahead := ho.mono fun c hc => by simp [hc]
  have hget : (keyword ".get(".toList).Misses k := by
    rw [misses_iff]
    rintro _ k₂ hr
    obtain ⟨k₃, h₃, h₄⟩ := Cursor.passes_append.mp
      (show k.Passes (['.'] ++ ("get".toList ++ ['('])) k₂ from reads_keyword.mp hr)
    obtain rfl := h₁.unique h₃
    obtain ⟨k₄, h₅, h₆⟩ := Cursor.passes_append.mp h₄
    -- the identifier is the longest run behind the point, so a call would end it
    have hrun := reads_run.mpr ⟨h₂, hall, hname⟩
    have hletters : "get".toList.all continuesIdentifier = true := by decide
    have hcall := reads_run.mpr ⟨h₅, List.all_eq_true.mp hletters, by
      rw [h₆.ahead]
      exact startsOutside_cons.mpr (by decide)⟩
    obtain ⟨-, rfl⟩ := hrun.unique hcall
    have := ho '(' (by rw [h₆.ahead]; rfl)
    simp at this
  refine reads_orElse.mpr (.inr ⟨misses_square hk, reads_orElse.mpr (.inr ⟨?_, ?_⟩)⟩)
  · exact misses_bind.mpr (.inl hget)
  · refine reads_bind.mpr ⟨(), k₁, reads_symbol.mpr h₁, ?_⟩
    exact reads_bind.mpr ⟨s, k', reads_identifier hs h₂ hname, reads_pure.mpr ⟨rfl, rfl⟩⟩

/-! ### Segments -/

/-- What stands between the brackets of an access for a segment. -/
theorem operand_of_segment (s : String) (quoted : Bool) (hq : quoted = false ↔ shape s = .index) :
    Operand (asRead s) (if quoted then Text.quote s else s).toList := by
  unfold asRead
  cases hs : shape s with
  | index =>
    rw [hq.mpr hs]
    exact .digits (shape_eq_index.mp hs)
  | key =>
    have hquoted : quoted = true := by
      cases hb : quoted with
      | false => exact absurd (hq.mp hb) (by rw [hs]; decide)
      | true => rfl
    rw [hquoted, if_pos rfl, Text.quote, String.toList_ofList]
    exact .quoted s

theorem toList_access (a : Access) (s : String) : (a.append s).toList =
    a.before.toList ++ ((if a.quoted then Text.quote s else s).toList ++ a.behind.toList) := by
  rw [Access.append, String.toList_append, String.toList_append, List.append_assoc]

/-- The accesses that there are: square brackets, the call of a getter, and a point in front of an
identifier. Between brackets only an index stands without quotation marks. -/
theorem access_cases (l : Language) (s : String) :
    (∃ quoted, (quoted = false ↔ shape s = .index) ∧
      (l.style.access s = ⟨"[", "]", quoted⟩ ∨ l.style.access s = ⟨".get(", ")", quoted⟩)) ∨
    l.style.access s = ⟨".", "", false⟩ ∧ isIdentifier s = true ∧ shape s = .key := by
  have hl : l.style = .points ∨ l.style = .brackets ∨ l.style = .getters := by
    cases l <;> simp [Language.style]
  unfold Style.access
  cases hs : shape s with
  | index =>
    refine .inl ⟨false, by simp, ?_⟩
    rcases hl with h | h | h <;> rw [h]
    · exact .inl rfl
    · exact .inl rfl
    · exact .inr rfl
  | key =>
    by_cases hi : isIdentifier s = true
    · simp only [hi, if_true]
      rcases hl with h | h | h <;> rw [h]
      · exact .inr ⟨rfl, trivial, trivial⟩
      · exact .inl ⟨true, by simp, .inl rfl⟩
      · exact .inl ⟨true, by simp, .inr rfl⟩
    · refine .inl ⟨true, by simp, ?_⟩
      rcases hl with h | h | h <;> simp only [hi, h]
      · exact .inl rfl
      · exact .inl rfl
      · exact .inr rfl

/-- The text of a segment. -/
theorem segment_cases (l : Language) (s : String) :
    (∃ cs, Operand (asRead s) cs ∧ ((l.style.segment s).toList = '[' :: (cs ++ [']']) ∨
      (l.style.segment s).toList = ".get(".toList ++ (cs ++ [')']))) ∨
    (l.style.segment s).toList = '.' :: s.toList ∧ isIdentifier s = true ∧ asRead s = .key s := by
  have hsquare : "[".toList = ['['] ∧ "]".toList = [']'] := by decide
  have hround : ")".toList = [')'] := by decide
  have hpoint : ".".toList = ['.'] ∧ "".toList = [] := by decide
  unfold Style.segment
  rw [toList_access]
  rcases access_cases l s with ⟨quoted, hq, h | h⟩ | ⟨h, hi, hs⟩ <;> rw [h]
  · refine .inl ⟨_, operand_of_segment s quoted hq, .inl ?_⟩
    rw [hsquare.1, hsquare.2]
    rfl
  · refine .inl ⟨_, operand_of_segment s quoted hq, .inr ?_⟩
    rw [hround]
  · refine .inr ⟨?_, hi, ?_⟩
    · rw [hpoint.1, hpoint.2, List.append_nil]
      rfl
    · unfold asRead
      rw [hs]

/-- A segment starts with a square bracket or a point. -/
theorem head_segment (l : Language) (s : String) :
    ∃ c cs, (l.style.segment s).toList = c :: cs ∧ (c = '[' ∨ c = '.') := by
  rcases segment_cases l s with ⟨cs, -, h | h⟩ | ⟨h, -, -⟩
  · exact ⟨'[', _, h, .inl rfl⟩
  · exact ⟨'.', _, h, .inr rfl⟩
  · exact ⟨'.', _, h, .inr rfl⟩

/-- **Each segment** is read from its text, whatever the language. -/
theorem reads_segment {l : Language} {s : String} (h : k.Passes (l.style.segment s).toList k')
    (ho : EndsName k'.ahead) : accessor.Reads k (asRead s) k' := by
  rcases segment_cases l s with ⟨cs, hs, he | he⟩ | ⟨he, hi, hs⟩ <;> rw [he] at h
  · exact reads_accessor_brackets hs h
  · exact reads_accessor_getter hs h
  · rw [hs]
    exact reads_accessor_point hi h ho

/-! ### Expressions -/

/-- The text of the segments of a path. -/
def segments (l : Language) (p : Path) : List Char := p.flatMap fun s => (l.style.segment s).toList

theorem segments_cons (l : Language) (s : String) (p : Path) :
    segments l (s :: p) = (l.style.segment s).toList ++ segments l p := rfl

theorem toList_expression (l : Language) (receiver : String) (p : Path) :
    (l.expression receiver p).toList = receiver.toList ++ segments l p := by
  unfold Language.expression Style.expression segments
  induction p generalizing receiver with
  | nil => simp
  | cons s p ih =>
    rw [List.foldl_cons, ih, List.flatMap_cons, String.toList_append, List.append_assoc]

theorem length_le_segments (l : Language) (p : Path) : p.length ≤ (segments l p).length := by
  induction p with
  | nil => exact Nat.zero_le _
  | cons s p ih =>
    obtain ⟨c, cs, he, -⟩ := head_segment l s
    rw [segments_cons, he]
    simp only [List.length_append, List.length_cons]
    omega

/-- Behind a name only segments follow. -/
theorem endsName_of_passes {l : Language} {p : Path} (h : k.Passes (segments l p) k')
    (he : k'.ahead = []) : EndsName k.ahead := by
  rw [EndsName, h.ahead, he, List.append_nil]
  cases p with
  | nil => exact startsOutside_nil _
  | cons s p =>
    obtain ⟨c, cs, hs, hc⟩ := head_segment l s
    rw [segments_cons, hs]
    refine startsOutside_cons.mpr ?_
    rcases hc with rfl | rfl <;> decide

theorem misses_accessor (h : k.ahead = []) : accessor.Misses k := by
  have hs : ∀ c, (symbol c).Misses k := fun c => misses_symbol.mpr (by rw [h]; simp)
  refine misses_orElse.mpr ⟨misses_bind.mpr (.inl (hs _)), misses_orElse.mpr ⟨?_, ?_⟩⟩
  · exact misses_bind.mpr (.inl (misses_keyword (c := '.') (by rw [h]; simp)))
  · exact misses_bind.mpr (.inl (hs _))

theorem reads_accessors {l : Language} {p : Path} (h : k.Passes (segments l p) k')
    (he : k'.ahead = []) : ∀ bound : List Char, p.length ≤ bound.length →
      (accessors bound).Reads k (p.map asRead) k' := by
  induction p generalizing k with
  | nil =>
    intro bound _
    obtain rfl := Cursor.passes_nil.mp h
    cases bound with
    | nil => exact reads_pure.mpr ⟨rfl, rfl⟩
    | cons c bound =>
      refine reads_bind.mpr ⟨none, _, reads_optional.mpr (.inr ⟨rfl, rfl, misses_accessor he⟩), ?_⟩
      exact reads_pure.mpr ⟨rfl, rfl⟩
  | cons s p ih =>
    intro bound hb
    obtain ⟨k₁, h₁, h₂⟩ := Cursor.passes_append.mp h
    cases bound with
    | nil => cases hb
    | cons c bound =>
      have hs := reads_segment h₁ (endsName_of_passes h₂ he)
      have hrest := ih h₂ bound (Nat.le_of_succ_le_succ hb)
      refine reads_bind.mpr ⟨some (asRead s), k₁, reads_optional.mpr (.inl ⟨_, rfl, hs⟩), ?_⟩
      exact reads_bind.mpr ⟨p.map asRead, k', hrest, reads_pure.mpr ⟨rfl, rfl⟩⟩

/-- **An expression is read back** as its receiver and the accessors of its path. -/
theorem readBack_expression (l : Language) {receiver : String} (hr : isIdentifier receiver = true)
    (p : Path) : readBack? (l.expression receiver p) = some (receiver, p.map asRead) := by
  obtain ⟨k₁, h₁, h₂⟩ := Cursor.passes_append.mp (Cursor.passes_start (receiver.toList ++ segments l p))
  have hname := (endsName_of_passes h₂ rfl).mono fun c (hc : continuesIdentifier c = true) => by
    simp [hc]
  have hbound : p.length ≤ k₁.ahead.length := by
    rw [h₂.ahead, List.append_nil]
    exact length_le_segments l p
  have hread : accessExpression.Reads (Cursor.start (receiver.toList ++ segments l p))
      (receiver, p.map asRead) ⟨[], byteLength (receiver.toList ++ segments l p)⟩ := by
    refine reads_bind.mpr ⟨receiver, k₁, reads_identifier hr h₁ hname, ?_⟩
    refine reads_bind.mpr ⟨p.map asRead, _, reads_accessors h₂ rfl k₁.ahead hbound, ?_⟩
    exact reads_bind.mpr ⟨(), _, reads_endOfInput.mpr ⟨rfl, rfl⟩, reads_pure.mpr ⟨rfl, rfl⟩⟩
  unfold readBack?
  rw [toList_expression, show (accessExpression _).result = _ from hread]
  rfl

end JsonSelect.Reading
