import JsonSelect.Proofs.Document
import JsonSelect.Proofs.Written.Integers

/-! # Values that are read back

`Value.compact` and `Value.pretty` put the same tokens on one line and on many. What they put between the
tokens is a `Spacing`, and `Value.form` is the form of a value that is written with it; so the two texts are
the texts of two forms (`chars_form_compact`, `chars_form_pretty`).

Not every value is read back from its text: an integer that needs more than 64 bits is read as a
floating-point number, and of the members of one name only one is left. A value without these, and without
floating-point numbers, is `Legible`. The forms of a legible value are grammatical and accepted and denote the
value, so both of its texts read as documents of that value, if it nests no deeper than a document may
(`Document.parse_compact`, `Document.parse_pretty`). -/

namespace JsonSelect

open Reading Written

theorem denoted_escaped (s : String) : denoted (s.toList.flatMap Text.escaped) = s := by
  simp only [denoted, Text.meaning_escaped, String.ofList_toList]

/-! ### Scalars -/

namespace Scalar

/-- The scalar is no floating-point number. -/
def NoFloat (s : Scalar) : Prop := ∀ x, s ≠ .number (.float x)

/-- The scalar is no integer that needs more than 64 bits. -/
def Fits (s : Scalar) : Prop := ∀ i, s = .number (.integer i) → fitsWord i = true

/-- The literal of a scalar. A floating-point number is taken for zero. -/
def literal : Scalar → Literal
  | .null => .null
  | .boolean b => .boolean b
  | .number (.integer i) => .number (integerLiteral i)
  | .number (.float _) => .number (integerLiteral 0)
  | .string s => .string (s.toList.flatMap Text.escaped)

variable {s : Scalar}

theorem literal_grammatical (s : Scalar) : (Form.literal s.literal).Grammatical := by
  cases s with
  | null => exact trivial
  | boolean b => exact trivial
  | number x =>
    cases x with
    | integer i => exact grammatical_integerLiteral i
    | float x => exact grammatical_integerLiteral 0
  | string s => exact ⟨_, Text.spells_escaped s.toList⟩

/-- The literal of a scalar denotes it. -/
theorem literal_accepted (hn : s.NoFloat) (hf : s.Fits) :
    (Form.literal s.literal).Accepted ∧ s.literal.scalar = s := by
  cases s with
  | null => exact ⟨trivial, rfl⟩
  | boolean b => exact ⟨trivial, rfl⟩
  | number x =>
    cases x with
    | integer i =>
      have hi := number?_integerLiteral (hf i rfl)
      exact ⟨⟨_, hi⟩, by rw [literal, Literal.scalar, hi, Option.getD_some]⟩
    | float x => exact absurd rfl (hn x)
  | string s => exact ⟨⟨_, Text.meaning_escaped s.toList⟩, by rw [literal, Literal.scalar, denoted_escaped]⟩

/-- The text of a scalar is its literal. -/
theorem chars_literal (hn : s.NoFloat) : s.literal.chars = s.text.toList := by
  cases s with
  | null => rfl
  | boolean b => cases b <;> rfl
  | number x =>
    cases x with
    | integer i => exact (chars_integerLiteral i).trans (String.toList_ofList).symm
    | float x => exact absurd rfl (hn x)
  | string s => exact String.toList_ofList.symm

end Scalar

/-! ### What stands between the tokens -/

/-- The blanks that a value is written with. -/
structure Spacing where
  /-- Around an entry of a container `depth` levels deep, the last of them or not. -/
  entry : (depth : Nat) → (last : Bool) → Pad
  /-- Around a colon. -/
  colon : Pad
  blank_entry : ∀ depth last, Blanks (entry depth last).before ∧ Blanks (entry depth last).after
  blank_colon : Blanks colon.before ∧ Blanks colon.after

/-- The start of a line `depth` levels deep. -/
def indentation (depth : Nat) : List Char := List.replicate (2 * depth) ' '

/-- A line break and the start of the next line. -/
def lineBreak (depth : Nat) : List Char := '\n' :: indentation depth

theorem toList_pushn (s : String) (c : Char) (n : Nat) :
    (s.pushn c n).toList = s.toList ++ List.replicate n c := by
  rw [String.pushn_eq_repeat_push]
  induction n with
  | zero => exact (List.append_nil _).symm
  | succ n ih => rw [Nat.repeat, String.toList_push, ih, List.replicate_succ', List.append_assoc]

theorem toList_indent (depth : Nat) : (Value.indent depth).toList = indentation depth :=
  toList_pushn "" ' ' _

theorem blanks_lineBreak (depth : Nat) : Blanks (lineBreak depth) := by
  intro c hc
  rcases List.mem_cons.mp hc with rfl | hc
  · decide
  · rw [List.eq_of_mem_replicate hc]
    decide

namespace Spacing

/-- No blanks. -/
def compact : Spacing where
  entry _ _ := ⟨[], []⟩
  colon := ⟨[], []⟩
  blank_entry _ _ := ⟨blanks_nil, blanks_nil⟩
  blank_colon := ⟨blanks_nil, blanks_nil⟩

/-- Each entry on a line of its own, a blank behind each colon. -/
def pretty : Spacing where
  entry depth last := ⟨lineBreak (depth + 1), if last then lineBreak depth else []⟩
  colon := ⟨[], [' ']⟩
  blank_entry depth last := by
    refine ⟨blanks_lineBreak _, ?_⟩
    cases last with
    | false => exact blanks_nil
    | true => exact blanks_lineBreak _
  blank_colon := by
    refine ⟨blanks_nil, fun c hc => ?_⟩
    rw [List.mem_singleton.mp hc]
    decide

variable (sp : Spacing)

/-- The texts of the entries of a container `depth` levels deep, with what stands around each. -/
def texts (depth : Nat) : List (List Char) → List (List Char)
  | [] => []
  | t :: ts => (sp.entry depth ts.isEmpty).around t :: texts depth ts

theorem texts_compact (depth : Nat) (ts : List (List Char)) : compact.texts depth ts = ts := by
  induction ts with
  | nil => rfl
  | cons t ts ih =>
    rw [texts, ih]
    simp [compact, Pad.around]

end Spacing

/-! ### The form of a value -/

namespace Value

mutual

/-- The form of a value that is written `depth` levels deep. -/
def form (sp : Spacing) (depth : Nat) : Value → Form
  | .scalar s => .literal s.literal
  | .array items => .array [] (formItems sp depth items)
  | .object members => .object [] (formMembers sp depth members)

/-- The forms of the items of an array `depth` levels deep. -/
def formItems (sp : Spacing) (depth : Nat) : List Value → List (Pad × Form)
  | [] => []
  | v :: vs => (sp.entry depth vs.isEmpty, v.form sp (depth + 1)) :: formItems sp depth vs

/-- The forms of the members of an object `depth` levels deep. -/
def formMembers (sp : Spacing) (depth : Nat) : List (String × Value) → List (Written.Label × Form)
  | [] => []
  | (name, v) :: ms =>
    (⟨sp.entry depth ms.isEmpty, name.toList.flatMap Text.escaped, sp.colon⟩, v.form sp (depth + 1)) ::
      formMembers sp depth ms

end

mutual

/-- How deep arrays and objects nest. -/
def depth : Value → Nat
  | .scalar _ => 0
  | .array items => itemDepth items + 1
  | .object members => memberDepth members + 1

/-- How deep the items of an array nest. -/
def itemDepth : List Value → Nat
  | [] => 0
  | v :: vs => max v.depth (itemDepth vs)

/-- How deep the members of an object nest. -/
def memberDepth : List (String × Value) → Nat
  | [] => 0
  | (_, v) :: ms => max v.depth (memberDepth ms)

end

theorem depth_array {items : List Value} {n : Nat} :
    (array items).depth ≤ n + 1 ↔ ∀ v ∈ items, v.depth ≤ n := by
  rw [depth, Nat.add_le_add_iff_right]
  induction items with
  | nil => simp [itemDepth]
  | cons v vs ih => rw [itemDepth, Nat.max_le, ih, List.forall_mem_cons]

theorem depth_object {members : List (String × Value)} {n : Nat} :
    (object members).depth ≤ n + 1 ↔ ∀ m ∈ members, m.2.depth ≤ n := by
  rw [depth, Nat.add_le_add_iff_right]
  induction members with
  | nil => simp [memberDepth]
  | cons m ms ih => rw [memberDepth, Nat.max_le, ih, List.forall_mem_cons]

variable {sp : Spacing}

theorem mem_formItems {depth : Nat} {vs : List Value} {i : Pad × Form} (h : i ∈ formItems sp depth vs) :
    ∃ last, ∃ v ∈ vs, i = (sp.entry depth last, v.form sp (depth + 1)) := by
  induction vs with
  | nil => cases h
  | cons v vs ih =>
    rcases List.mem_cons.mp h with rfl | h
    · exact ⟨_, v, by simp, rfl⟩
    · obtain ⟨last, v', hv, rfl⟩ := ih h
      exact ⟨last, v', by simp [hv], rfl⟩

theorem mem_formMembers {depth : Nat} {ms : List (String × Value)} {m : Written.Label × Form}
    (h : m ∈ formMembers sp depth ms) : ∃ last, ∃ m' ∈ ms,
      m = (⟨sp.entry depth last, m'.1.toList.flatMap Text.escaped, sp.colon⟩, m'.2.form sp (depth + 1)) := by
  induction ms with
  | nil => cases h
  | cons m' ms ih =>
    rcases List.mem_cons.mp h with rfl | h
    · exact ⟨_, m', by simp, rfl⟩
    · obtain ⟨last, m'', hm, rfl⟩ := ih h
      exact ⟨last, m'', by simp [hm], rfl⟩

mutual

/-- Written in any way, a value nests as deep as it is. -/
theorem depth_form (sp : Spacing) (depth : Nat) : ∀ v : Value, (v.form sp depth).depth = v.depth
  | .scalar _ => rfl
  | .array items => congrArg (· + 1) (itemDepth_formItems sp depth items)
  | .object members => congrArg (· + 1) (memberDepth_formMembers sp depth members)

theorem itemDepth_formItems (sp : Spacing) (depth : Nat) :
    ∀ vs : List Value, Form.itemDepth (formItems sp depth vs) = itemDepth vs
  | [] => rfl
  | v :: vs => by
    rw [formItems, Form.itemDepth, itemDepth, depth_form, itemDepth_formItems]

theorem memberDepth_formMembers (sp : Spacing) (depth : Nat) :
    ∀ ms : List (String × Value), Form.memberDepth (formMembers sp depth ms) = memberDepth ms
  | [] => rfl
  | (name, v) :: ms => by
    rw [formMembers, Form.memberDepth, memberDepth, depth_form, memberDepth_formMembers]

end

theorem itemValues_formItems (depth : Nat) (vs : List Value) :
    Form.itemValues (formItems sp depth vs) = vs.map fun v => (v.form sp (depth + 1)).value := by
  induction vs with
  | nil => rfl
  | cons v vs ih => rw [formItems, Form.itemValues, ih, List.map_cons]

theorem memberValues_formMembers (depth : Nat) (ms : List (String × Value)) :
    Form.memberValues (formMembers sp depth ms) =
      ms.map fun m => (m.1, (m.2.form sp (depth + 1)).value) := by
  induction ms with
  | nil => rfl
  | cons m ms ih => rw [formMembers, Form.memberValues, ih, List.map_cons, Label.name, denoted_escaped]

/-! ### The text of the form -/

/-- Every scalar in the value has a property. -/
inductive EachScalar (P : Scalar → Prop) : Value → Prop
  | scalar {s : Scalar} (h : P s) : EachScalar P (.scalar s)
  | array {items : List Value} (h : ∀ v ∈ items, EachScalar P v) : EachScalar P (.array items)
  | object {members : List (String × Value)} (h : ∀ m ∈ members, EachScalar P m.2) :
      EachScalar P (.object members)

/-- The text of a member up to its value. -/
def memberFront (sp : Spacing) (name : String) : List Char :=
  Text.quoteChars name.toList ++ sp.colon.around [':']

theorem memberFront_compact (name : String) :
    memberFront .compact name = (Text.quote name ++ ":").toList := by
  simp [memberFront, Spacing.compact, Pad.around, Text.quote]

theorem memberFront_pretty (name : String) :
    memberFront .pretty name = (Text.quote name ++ ": ").toList := by
  simp [memberFront, Spacing.pretty, Pad.around, Text.quote]

theorem itemTexts_formItems (depth : Nat) (vs : List Value) : Form.itemTexts (formItems sp depth vs) =
    sp.texts depth (vs.map fun v => (v.form sp (depth + 1)).chars) := by
  induction vs with
  | nil => rfl
  | cons v vs ih => rw [formItems, Form.itemTexts, ih, List.map_cons, Spacing.texts, List.isEmpty_map]

theorem memberTexts_formMembers (depth : Nat) (ms : List (String × Value)) :
    Form.memberTexts (formMembers sp depth ms) =
      sp.texts depth (ms.map fun m => memberFront sp m.1 ++ (m.2.form sp (depth + 1)).chars) := by
  induction ms with
  | nil => rfl
  | cons m ms ih =>
    rw [formMembers, Form.memberTexts, ih, List.map_cons, Spacing.texts, List.isEmpty_map]
    rfl

theorem compactItems_eq_map (vs : List Value) : compactItems vs = vs.map compact := by
  induction vs with
  | nil => rfl
  | cons v vs ih => rw [compactItems, ih, List.map_cons]

theorem compactMembers_eq_map (ms : List (String × Value)) :
    compactMembers ms = ms.map fun m => Text.quote m.1 ++ ":" ++ m.2.compact := by
  induction ms with
  | nil => rfl
  | cons m ms ih => rw [compactMembers, ih, List.map_cons]

theorem prettyItems_eq_map (depth : Nat) (vs : List Value) :
    prettyItems depth vs = vs.map (prettyAt depth) := by
  induction vs with
  | nil => rfl
  | cons v vs ih => rw [prettyItems, ih, List.map_cons]

theorem prettyMembers_eq_map (depth : Nat) (ms : List (String × Value)) :
    prettyMembers depth ms = ms.map fun m => Text.quote m.1 ++ ": " ++ m.2.prettyAt depth := by
  induction ms with
  | nil => rfl
  | cons m ms ih => rw [prettyMembers, ih, List.map_cons]

/-- A line break and entries on lines of their own, up to the closing bracket. -/
theorem commas_texts_pretty (depth : Nat) {ss : List String} (h : ss ≠ []) :
    Form.commas (Spacing.pretty.texts depth (ss.map String.toList)) =
      '\n' :: ((",\n".intercalate (ss.map (indent (depth + 1) ++ ·))).toList ++ lineBreak depth) := by
  induction ss with
  | nil => exact absurd rfl h
  | cons s ss ih =>
    cases ss with
    | nil => simp [Spacing.texts, Spacing.pretty, Form.commas, Pad.around, lineBreak, toList_indent]
    | cons s' ss =>
      have hcommas : Form.commas (Spacing.pretty.texts depth ((s :: s' :: ss).map String.toList)) =
          (Spacing.pretty.entry depth false).around s.toList ++
            ',' :: Form.commas (Spacing.pretty.texts depth ((s' :: ss).map String.toList)) := by
        simp [Spacing.texts, Form.commas]
      -- the line break behind a comma is the one in front of the next entry
      rw [hcommas, ih (List.cons_ne_nil _ _)]
      simp [Spacing.pretty, Pad.around, lineBreak, toList_indent]

theorem toList_block (left right : String) (depth : Nat) (ss : List String) :
    (block left right depth ss).toList = left.toList ++
      (Form.commas (Spacing.pretty.texts depth (ss.map String.toList)) ++ right.toList) := by
  cases ss with
  | nil => simp [block, Spacing.texts, Form.commas]
  | cons s ss =>
    rw [commas_texts_pretty depth (List.cons_ne_nil s ss)]
    simp [block, lineBreak, toList_indent]

/-- **The text on one line** is that of the form without blanks. -/
theorem chars_form_compact {v : Value} (h : v.EachScalar Scalar.NoFloat) (depth : Nat) :
    (v.form .compact depth).chars = v.compact.toList := by
  induction h generalizing depth with
  | scalar hs => exact Scalar.chars_literal hs
  | @array items _ ih =>
    have hitems : items.map (fun v => (v.form .compact (depth + 1)).chars) =
        (items.map compact).map String.toList := by
      rw [List.map_map]
      exact List.map_congr_left fun v hv => ih v hv _
    rw [form, Form.chars, itemTexts_formItems, Spacing.texts_compact, hitems, compact, compactItems_eq_map]
    simp [Form.commas]
  | @object members _ ih =>
    have hmembers : members.map (fun m => memberFront .compact m.1 ++ (m.2.form .compact (depth + 1)).chars) =
        (members.map fun m => Text.quote m.1 ++ ":" ++ m.2.compact).map String.toList := by
      rw [List.map_map]
      refine List.map_congr_left fun m hm => ?_
      rw [ih m hm, memberFront_compact, ← String.toList_append]
      rfl
    rw [form, Form.chars, memberTexts_formMembers, Spacing.texts_compact, hmembers, compact,
      compactMembers_eq_map]
    simp [Form.commas]

/-- **The text on many lines** is that of the form with each entry on a line of its own. -/
theorem chars_form_pretty {v : Value} (h : v.EachScalar Scalar.NoFloat) (depth : Nat) :
    (v.form .pretty depth).chars = (v.prettyAt depth).toList := by
  induction h generalizing depth with
  | scalar hs => exact Scalar.chars_literal hs
  | @array items _ ih =>
    have hitems : items.map (fun v => (v.form .pretty (depth + 1)).chars) =
        (items.map (prettyAt (depth + 1))).map String.toList := by
      rw [List.map_map]
      exact List.map_congr_left fun v hv => ih v hv _
    rw [form, Form.chars, itemTexts_formItems, hitems, prettyAt, prettyItems_eq_map, toList_block]
    simp
  | @object members _ ih =>
    have hmembers : members.map (fun m => memberFront .pretty m.1 ++ (m.2.form .pretty (depth + 1)).chars) =
        (members.map fun m => Text.quote m.1 ++ ": " ++ m.2.prettyAt (depth + 1)).map String.toList := by
      rw [List.map_map]
      refine List.map_congr_left fun m hm => ?_
      rw [ih m hm, memberFront_pretty, ← String.toList_append]
      rfl
    rw [form, Form.chars, memberTexts_formMembers, hmembers, prettyAt, prettyMembers_eq_map, toList_block]
    simp

/-! ### Legible values -/

end Value

theorem eraseDups_of_nodup {names : List String} (h : names.Nodup) : names.eraseDups = names := by
  induction names with
  | nil => rfl
  | cons name names ih =>
    obtain ⟨hname, hnames⟩ := List.nodup_cons.mp h
    have hother : names.filter (fun b => !b == name) = names := by
      refine List.filter_eq_self.mpr fun b hb => ?_
      have hne : b ≠ name := fun e => hname (e ▸ hb)
      simpa using hne
    rw [List.eraseDups_cons, hother, ih hnames]

theorem Written.Form.mem_of_mem_latest {α : Type} {ms : List (String × α)} {m : String × α}
    (h : m ∈ latest ms) : m ∈ ms := by
  obtain ⟨name, -, hlast⟩ := List.mem_filterMap.mp h
  exact List.mem_reverse.mp (List.mem_of_find?_eq_some hlast)

/-- Where no name comes again, every named thing is the last one of its name. -/
theorem Written.Form.latest_of_nodup {α : Type} {ms : List (String × α)} (h : (ms.map (·.1)).Nodup) :
    latest ms = ms := by
  have hlast : ∀ m ∈ ms, last? ms m.1 = some m := by
    -- what is found has the name of `m`, and only `m` has
    intro m hm
    cases hfound : last? ms m.1 with
    | none =>
      have hno := List.find?_eq_none.mp hfound m (List.mem_reverse.mpr hm)
      simp at hno
    | some m' =>
      have hname : m'.1 = m.1 := by simpa using List.find?_some hfound
      have hm' : m' ∈ ms := List.mem_reverse.mp (List.mem_of_find?_eq_some hfound)
      rw [List.inj_on_of_nodup_map h hm' hm hname]
  rw [latest, eraseDups_of_nodup h, List.filterMap_map]
  exact (List.filterMap_congr hlast).trans List.filterMap_some

namespace Value

/-- The value can be read back from its text: there is no floating-point number in it and no integer that
needs more than 64 bits, and no object repeats a name. -/
inductive Legible : Value → Prop
  | scalar {s : Scalar} (hn : s.NoFloat) (hf : s.Fits) : Legible (.scalar s)
  | array {items : List Value} (h : ∀ v ∈ items, Legible v) : Legible (.array items)
  | object {members : List (String × Value)} (hnames : (members.map (·.1)).Nodup)
      (h : ∀ m ∈ members, Legible m.2) : Legible (.object members)

namespace Legible

variable {v : Value}

theorem noFloat (h : v.Legible) : v.EachScalar Scalar.NoFloat := by
  induction h with
  | scalar hn _ => exact .scalar hn
  | array _ ih => exact .array ih
  | object _ _ ih => exact .object ih

theorem grammatical (h : v.Legible) (sp : Spacing) (depth : Nat) : (v.form sp depth).Grammatical := by
  induction h generalizing depth with
  | @scalar s _ _ => exact s.literal_grammatical
  | array _ ih =>
    refine Form.grammatical_array.mpr ⟨blanks_nil, fun i hi => ?_⟩
    obtain ⟨last, v, hv, rfl⟩ := mem_formItems hi
    exact ⟨sp.blank_entry depth last, ih v hv _⟩
  | object _ _ ih =>
    refine Form.grammatical_object.mpr ⟨blanks_nil, fun m hm => ?_⟩
    obtain ⟨last, m', hm', rfl⟩ := mem_formMembers hm
    exact ⟨sp.blank_entry depth last, ⟨_, Text.spells_escaped _⟩, sp.blank_colon, ih m' hm' _⟩

theorem accepted (h : v.Legible) (sp : Spacing) (depth : Nat) : (v.form sp depth).Accepted := by
  induction h generalizing depth with
  | scalar hn hf => exact (Scalar.literal_accepted hn hf).1
  | array _ ih =>
    refine Form.accepted_array.mpr fun i hi => ?_
    obtain ⟨last, v, hv, rfl⟩ := mem_formItems hi
    exact ih v hv _
  | object _ _ ih =>
    refine Form.accepted_object.mpr fun m hm => ?_
    obtain ⟨last, m', hm', rfl⟩ := mem_formMembers hm
    exact ⟨⟨_, Text.meaning_escaped _⟩, ih m' hm' _⟩

/-- **The form of a legible value** denotes it. -/
theorem value_form (h : v.Legible) (sp : Spacing) (depth : Nat) : (v.form sp depth).value = v := by
  induction h generalizing depth with
  | scalar hn hf => rw [form, Form.value, (Scalar.literal_accepted hn hf).2]
  | @array items _ ih =>
    have hitems : items.map (fun v => (v.form sp (depth + 1)).value) = items.map id :=
      List.map_congr_left fun v hv => ih v hv _
    rw [form, Form.value, itemValues_formItems, hitems, List.map_id]
  | @object members hnames _ ih =>
    -- no name comes again, so no member is overridden
    have hmembers : members.map (fun m => (m.1, (m.2.form sp (depth + 1)).value)) = members.map id :=
      List.map_congr_left fun m hm => by rw [ih m hm, id]
    rw [form, Form.value, memberValues_formMembers, hmembers, List.map_id, Form.latest_of_nodup hnames]

end Legible

/-- The value is legible and nests at most `n` levels deep. -/
structure LegibleWithin (n : Nat) (v : Value) : Prop where
  legible : v.Legible
  depth : v.depth ≤ n

namespace LegibleWithin

variable {n : Nat}

theorem mono {m : Nat} {v : Value} (h : v.LegibleWithin n) (hle : n ≤ m) : v.LegibleWithin m :=
  ⟨h.legible, h.depth.trans hle⟩

theorem string (s : String) : (Value.string s).LegibleWithin n :=
  ⟨.scalar (fun _ h => by cases h) (fun _ h => by cases h), Nat.zero_le n⟩

theorem array {items : List Value} (h : ∀ v ∈ items, v.LegibleWithin n) :
    (Value.array items).LegibleWithin (n + 1) :=
  ⟨.array fun v hv => (h v hv).legible, depth_array.mpr fun v hv => (h v hv).depth⟩

theorem object {members : List (String × Value)} (hnames : (members.map (·.1)).Nodup)
    (h : ∀ m ∈ members, m.2.LegibleWithin n) : (Value.object members).LegibleWithin (n + 1) :=
  ⟨.object hnames fun m hm => (h m hm).legible, depth_object.mpr fun m hm => (h m hm).depth⟩

end LegibleWithin

end Value

/-! ### Documents -/

namespace Document

variable {v : Value}

/-- A source that is a legible value, written in some way, with blanks behind it. -/
theorem parse_form (h : v.LegibleWithin maxDepth) (sp : Spacing) {source : String} {ending : List Char}
    (hs : source.toList = (v.form sp 0).chars ++ ending) (he : Blanks ending) :
    ∃ d, parse source = .ok d ∧ d.root.value = v := by
  have hderives : Derives source.toList ⟨[], ending⟩ (v.form sp 0) :=
    ⟨hs, blanks_nil, he, h.legible.grammatical sp 0⟩
  have hdepth : (v.form sp 0).depth ≤ maxDepth := by
    rw [Value.depth_form]
    exact h.depth
  have hparse := parse_eq_ok.mpr ⟨_, _, ⟨hderives, hdepth, h.legible.accepted sp 0⟩, rfl⟩
  exact ⟨_, hparse, (Form.value_node _ _).trans (h.legible.value_form sp 0)⟩

/-- **A value on one line** reads as a document of this value. -/
theorem parse_compact (h : v.LegibleWithin maxDepth) :
    ∃ d, parse v.compact = .ok d ∧ d.root.value = v := by
  refine parse_form h .compact ?_ blanks_nil
  rw [Value.chars_form_compact h.legible.noFloat, List.append_nil]

/-- **A value on many lines**, and perhaps blanks behind it, reads as a document of this value. -/
theorem parse_pretty (h : v.LegibleWithin maxDepth) {ending : String} (he : Blanks ending.toList) :
    ∃ d, parse (v.pretty ++ ending) = .ok d ∧ d.root.value = v := by
  refine parse_form h .pretty ?_ he
  rw [Value.chars_form_pretty h.legible.noFloat, String.toList_append]
  rfl

end Document

end JsonSelect
