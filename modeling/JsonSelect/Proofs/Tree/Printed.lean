import JsonSelect.Proofs.Tree.Paths
import JsonSelect.Proofs.Written.Tokens

/-! # The characters of displayed tokens

What a tree displays holds no control character: numbers are written with digits and a few signs, and quoted
texts escape the characters below U+0020. So no token breaks the line that it stands on
(`Node.printable_lines`). -/

namespace JsonSelect

open Text Reading

theorem printable_singleton {c : Char} (h : 0x20 ≤ c.toNat) : Printable [c] := .cons h (List.forall_mem_nil _)

theorem printable_replicate {c : Char} (h : 0x20 ≤ c.toNat) (n : Nat) : Printable (List.replicate n c) := by
  intro d hd
  rwa [List.eq_of_mem_replicate hd]

theorem Printable.take {cs : List Char} (h : Printable cs) (n : Nat) : Printable (cs.take n) :=
  fun c hc => h c (List.mem_of_mem_take hc)

theorem Printable.drop {cs : List Char} (h : Printable cs) (n : Nat) : Printable (cs.drop n) :=
  fun c hc => h c (List.mem_of_mem_drop hc)

theorem Printable.ite {p : Prop} [Decidable p] {cs ds : List Char} (h : Printable cs) (h' : Printable ds) :
    Printable (if p then cs else ds) := by
  split
  · exact h
  · exact h'

theorem printable_join {ss : List String} (h : ∀ s ∈ ss, Printable s.toList) :
    Printable (String.join ss).toList := by
  intro c hc
  rw [String.toList_join] at hc
  obtain ⟨s, hs, hc⟩ := List.mem_flatMap.mp hc
  exact h s hs c hc

theorem printable_intercalate {sep : String} {ss : List String} (hsep : Printable sep.toList)
    (h : ∀ s ∈ ss, Printable s.toList) : Printable (sep.intercalate ss).toList := by
  induction ss with
  | nil => simp [Printable]
  | cons s ss ih =>
    obtain ⟨hs, hss⟩ := List.forall_mem_cons.mp h
    cases ss with
    | nil => simpa using hs
    | cons s' ss =>
      rw [String.intercalate_cons_cons, String.toList_append, String.toList_append]
      exact (hs.append hsep).append (ih hss)

/-! ### Numbers -/

theorem printable_decimalChars (n : Nat) : Printable (decimalChars n) := by
  have hdigits : Printable "0123456789".toList := printable_of_all (by decide)
  exact fun c hc => hdigits c (mem_of_isDigit ((digits_toDigits n).2 c hc))

theorem printable_positional {ds : List Char} (h : Printable ds) (e : Int) : Printable (positional ds e) := by
  have hzeros : ∀ n, Printable (List.replicate n '0') := printable_replicate (by decide)
  have hzero : Printable ['0'] := printable_singleton (by decide)
  unfold positional
  refine .ite (.cons (by decide) (.cons (by decide) ((hzeros _).append h))) ?_
  exact ((h.take _).append (hzeros _)).append (.cons (by decide) (.ite hzero (h.drop _)))

theorem printable_scientific {ds : List Char} (h : Printable ds) (e : Int) : Printable (scientific ds e) := by
  have hfraction : Printable (if (ds.drop 1).isEmpty then [] else '.' :: ds.drop 1) :=
    .ite (List.forall_mem_nil _) (.cons (by decide) (h.drop 1))
  have hexponent : Printable ((if e < 0 then '-' else '+') :: decimalChars e.natAbs) := by
    refine .cons ?_ (printable_decimalChars _)
    split <;> decide
  exact ((h.take 1).append hfraction).append (.cons (by decide) hexponent)

theorem Decimal.printable_chars (d : Decimal) : Printable d.chars :=
  .ite (printable_positional (printable_decimalChars _) _) (printable_scientific (printable_decimalChars _) _)

theorem printable_signed {p : Prop} [Decidable p] {cs : List Char} (h : Printable cs) :
    Printable ((if p then ['-'] else []) ++ cs) :=
  (Printable.ite (printable_singleton (by decide)) (List.forall_mem_nil _)).append h

theorem Number.printable_chars (x : Number) : Printable x.chars := by
  cases x with
  | integer i => exact printable_signed (printable_decimalChars _)
  | float x => exact printable_signed (.ite (printable_of_all (by decide)) (Decimal.printable_chars _))

/-! ### Scalars and keys -/

theorem printable_quote (s : String) : Printable (Text.quote s).toList := by
  have hcontents := printable_of_meaning ⟨_, spells_escaped s.toList⟩ (meaning_escaped s.toList)
  rw [Text.quote, String.toList_ofList]
  exact Written.printable_enclosed hcontents

theorem Scalar.printable_text (s : Scalar) : Printable s.text.toList := by
  cases s with
  | null => exact printable_of_all (by decide)
  | boolean b => cases b <;> exact printable_of_all (by decide)
  | number x =>
    rw [text, String.toList_ofList]
    exact x.printable_chars
  | string s => exact printable_quote s

/-! ### Lines -/

/-- No token of the line holds a control character. -/
def Line.Printed (l : Line) : Prop := ∀ token ∈ l.tokens, Printable token.text.toList

namespace Node

/-- The lines of a node hold no control character behind a lead that holds none. -/
def PrintedLines (n : Node) : Prop := ∀ depth first lead comma,
  (∀ token ∈ lead, Printable token.text.toList) → ∀ l ∈ n.lines depth first lead comma, l.Printed

theorem printed_itemLines {ns : List Node} (h : ∀ n ∈ ns, n.PrintedLines) (depth first : Nat) :
    ∀ l ∈ itemLines depth first ns, l.Printed := by
  induction ns generalizing first with
  | nil => exact List.forall_mem_nil _
  | cons n ns ih =>
    obtain ⟨hn, hns⟩ := List.forall_mem_cons.mp h
    intro l hl
    rcases List.mem_append.mp hl with hl | hl
    · exact hn _ _ _ _ (List.forall_mem_nil _) l hl
    · exact ih hns _ l hl

theorem printed_memberLines {ms : List (Key × Node)} (h : ∀ m ∈ ms, m.2.PrintedLines) (depth first : Nat) :
    ∀ l ∈ memberLines depth first ms, l.Printed := by
  induction ms generalizing first with
  | nil => exact List.forall_mem_nil _
  | cons m ms ih =>
    obtain ⟨hm, hms⟩ := List.forall_mem_cons.mp h
    have hlead : ∀ token ∈ [⟨Text.quote m.1.name, some first⟩, Token.plain ": "],
        Printable token.text.toList := by
      simpa [printable_quote] using printable_of_all (by decide)
    intro l hl
    rcases List.mem_append.mp hl with hl | hl
    · exact hm _ _ _ _ hlead l hl
    · exact ih hms _ l hl

/-- **Lines of a node** hold no control characters. -/
theorem printed_lines (n : Node) : n.PrintedLines := by
  have hcomma : ∀ comma, ∀ token ∈ commaIf comma, Printable token.text.toList := by
    intro comma
    cases comma with
    | false => exact List.forall_mem_nil _
    | true => exact List.forall_mem_singleton.mpr (printable_of_all (by decide))
  have hsquare : Printable "[".toList ∧ Printable "]".toList :=
    ⟨printable_of_all (by decide), printable_of_all (by decide)⟩
  have hcurly : Printable "\x7b".toList ∧ Printable "\x7d".toList :=
    ⟨printable_of_all (by decide), printable_of_all (by decide)⟩
  induction n using Node.induction with
  | scalar span s =>
    intro depth first lead comma hlead
    simpa [lines, Line.Printed, or_imp, forall_and] using ⟨hlead, s.printable_text, hcomma comma⟩
  | array span items ih =>
    intro depth first lead comma hlead
    cases items with
    | nil =>
      simpa [lines, Line.Printed, or_imp, forall_and] using ⟨hlead, hsquare.1, hsquare.2, hcomma comma⟩
    | cons n ns =>
      have hitems := printed_itemLines ih (depth + 1) (first + 1)
      simpa [lines, Line.Printed, or_imp, forall_and] using
        ⟨⟨hlead, hsquare.1⟩, hitems, hsquare.2, hcomma comma⟩
  | object span members ih =>
    intro depth first lead comma hlead
    cases members with
    | nil =>
      simpa [lines, Line.Printed, or_imp, forall_and] using ⟨hlead, hcurly.1, hcurly.2, hcomma comma⟩
    | cons m ms =>
      have hmembers := printed_memberLines ih (depth + 1) (first + 1)
      simpa [lines, Line.Printed, or_imp, forall_and] using
        ⟨⟨hlead, hcurly.1⟩, hmembers, hcurly.2, hcomma comma⟩

end Node

end JsonSelect
