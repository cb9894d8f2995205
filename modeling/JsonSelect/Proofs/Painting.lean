import JsonSelect.Proofs.Access.Expression
import JsonSelect.Proofs.Rendering
import JsonSelect.Report

/-! # Painted text

Colours change nothing but colours. Without the escape sequences that begin and end a colour
(`Text.unpainted`), a painted text is the text that is not painted, as long as that one holds no escape
character: then every escape character is one of a sequence (`Unpaints`). No escape character comes from a
document, since texts are quoted wherever they are shown, nor from an expression for a node. -/

namespace JsonSelect

namespace Text

/-- The characters of a text without the sequences that begin green or yellow text or end a colour. -/
def unpaintedChars : List Char → List Char
  | '\x1b' :: '[' :: '3' :: '2' :: 'm' :: cs => unpaintedChars cs
  | '\x1b' :: '[' :: '3' :: '3' :: 'm' :: cs => unpaintedChars cs
  | '\x1b' :: '[' :: '0' :: 'm' :: cs => unpaintedChars cs
  | c :: cs => c :: unpaintedChars cs
  | [] => []

/-- A text without the sequences that begin green or yellow text or end a colour. -/
def unpainted (s : String) : String := String.ofList (unpaintedChars s.toList)

/-- Only an escape character begins a sequence. -/
theorem unpaintedChars_append {cs : List Char} (h : '\x1b' ∉ cs) (rest : List Char) :
    unpaintedChars (cs ++ rest) = cs ++ unpaintedChars rest := by
  induction cs with
  | nil => rfl
  | cons c cs ih =>
    obtain ⟨hc, hcs⟩ := not_or.mp (mt List.mem_cons.mpr h)
    rw [List.cons_append, unpaintedChars, ih hcs, List.cons_append]
    all_goals
      rintro _ rfl
      exact absurd rfl hc

end Text

open Text

/-- Without its colours, a painted text is the plain one, whatever follows it. -/
structure Unpaints (painted plain : String) : Prop where
  clean : '\x1b' ∉ plain.toList
  chars : ∀ cs, unpaintedChars (painted.toList ++ cs) = plain.toList ++ unpaintedChars cs

namespace Unpaints

variable {s s' t t' : String}

theorem of_notMem (h : '\x1b' ∉ s.toList) : Unpaints s s := ⟨h, unpaintedChars_append h⟩

theorem of_printable (h : Printable s.toList) : Unpaints s s := of_notMem (h.notMem (by decide))

theorem append (h : Unpaints s t) (h' : Unpaints s' t') : Unpaints (s ++ s') (t ++ t') := by
  constructor
  · rw [String.toList_append]
    exact fun hm => (List.mem_append.mp hm).elim h.clean h'.clean
  · intro cs
    rw [String.toList_append, String.toList_append, List.append_assoc, h.chars, h'.chars, List.append_assoc]

theorem join {α : Type} {as : List α} {f g : α → String} (h : ∀ a ∈ as, Unpaints (f a) (g a)) :
    Unpaints (String.join (as.map f)) (String.join (as.map g)) := by
  induction as with
  | nil => exact of_notMem List.not_mem_nil
  | cons a as ih =>
    obtain ⟨ha, has⟩ := List.forall_mem_cons.mp h
    rw [List.map_cons, List.map_cons, String.join_cons, String.join_cons]
    exact ha.append (ih has)

/-- Text in one of the two colours. -/
theorem paint {c : Colour} (hc : c = .green ∨ c = .yellow) (h : '\x1b' ∉ s.toList) : Unpaints (c.paint s) s := by
  have hbegins : ∀ cs, unpaintedChars ((escapeSequence c.code).toList ++ cs) = unpaintedChars cs := fun cs => by
    rcases hc with rfl | rfl
    · simp [unpaintedChars, escapeSequence, Colour.code]
    · simp [unpaintedChars, escapeSequence, Colour.code]
  have hends : ∀ cs, unpaintedChars ((escapeSequence "0").toList ++ cs) = unpaintedChars cs := fun cs => by
    simp [unpaintedChars, escapeSequence]
  refine ⟨h, fun cs => ?_⟩
  rw [Colour.paint, styled, String.toList_append, String.toList_append, List.append_assoc, List.append_assoc,
    hbegins, unpaintedChars_append h, hends]

theorem unpainted_eq (h : Unpaints s t) : unpainted s = t := by
  have hchars := h.chars []
  rw [List.append_nil] at hchars
  rw [unpainted, hchars]
  simp [unpaintedChars]

end Unpaints

/-! ### Rendered trees -/

theorem Mark.unpaints (m : Mark) {text : String} (h : Printable text.toList) :
    Unpaints (m.paint true text) (m.paint false text) := by
  have hclean : '\x1b' ∉ text.toList := h.notMem (by decide)
  rw [Mark.paint_plain]
  cases m with
  | blank => exact .of_notMem hclean
  | hover => exact .paint (.inr rfl) hclean
  | selected => exact .paint (.inl rfl) hclean

/-- Of a line only the tokens are painted. -/
theorem Line.unpaints {l : Line} (h : l.Printed) (marks : Array Mark) (width : Nat) :
    Unpaints (l.render marks true width) (l.render marks false width) := by
  let fill := "".pushn ' ' (width - l.text.length)
  have hrender : ∀ colour, l.render marks colour width =
      String.singleton (l.mark marks).char ++ " " ++ l.indentation ++
        String.join (l.tokens.map fun token => (token.mark marks).paint colour token.text) ++
        fill ++ "  " ++ " ".intercalate (l.ids.map ("#" ++ ·.repr)) ++ "\n" := fun _ => rfl
  have hmark : ∀ m : Mark, '\x1b' ∉ (String.singleton m.char ++ " ").toList := by
    intro m
    cases m <;> decide
  have hindentation : Printable l.indentation.toList := by
    rw [indentation, toList_indent]
    exact printable_replicate (by decide) _
  have htokens := Unpaints.join fun token htoken => Mark.unpaints (token.mark marks) (h token htoken)
  have hfill : Printable fill.toList := by
    rw [toList_pushn]
    exact printable_replicate (by decide) _
  have hbody := ((Unpaints.of_notMem (hmark (l.mark marks))).append (.of_printable hindentation)).append htokens
  rw [hrender, hrender]
  exact (((hbody.append (.of_printable hfill)).append (.of_notMem (by decide))).append
    (.of_printable l.printable_ids)).append (.of_notMem (by decide))

theorem Node.unpaints_render (n : Node) (e : Emphasis) :
    Unpaints (n.tree.render e true) (n.tree.render e false) := by
  unfold Tree.render
  refine .join fun l hl => Line.unpaints ?_ _ _
  exact n.printed_lines 0 0 [] false (List.forall_mem_nil _) l hl

/-! ### Values and paths -/

mutual

theorem Value.printable_compact : ∀ v : Value, Printable v.compact.toList
  | .scalar s => s.printable_text
  | .array items => by
    rw [compact, String.toList_append, String.toList_append]
    refine (Printable.append ?_ (printable_intercalate ?_ (printable_compactItems items))).append ?_
    all_goals exact printable_of_all (by decide)
  | .object members => by
    rw [compact, String.toList_append, String.toList_append]
    refine (Printable.append ?_ (printable_intercalate ?_ (printable_compactMembers members))).append ?_
    all_goals exact printable_of_all (by decide)

theorem Value.printable_compactItems : ∀ vs : List Value, ∀ s ∈ compactItems vs, Printable s.toList
  | [] => List.forall_mem_nil _
  | v :: vs => List.forall_mem_cons.mpr ⟨v.printable_compact, printable_compactItems vs⟩

theorem Value.printable_compactMembers :
    ∀ ms : List (String × Value), ∀ s ∈ compactMembers ms, Printable s.toList
  | [] => List.forall_mem_nil _
  | (name, v) :: ms => by
    refine List.forall_mem_cons.mpr ⟨?_, printable_compactMembers ms⟩
    rw [String.toList_append, String.toList_append]
    exact ((printable_quote name).append (printable_of_all (by decide))).append v.printable_compact

end

theorem Path.printable_display (p : Path) : Printable p.display.toList := p.value.printable_compact

/-! ### Expressions -/

theorem toNat_of_isAlpha {c : Char} (h : c.isAlpha = true) : 0x20 ≤ c.toNat ∧ c.toNat < 0x7f := by
  have hbetween : ∀ d e : Char, 0x20 ≤ d.toNat → e.toNat < 0x7f → d.val ≤ c.val ∧ c.val ≤ e.val →
      0x20 ≤ c.toNat ∧ c.toNat < 0x7f := fun d e hd he h =>
    ⟨Nat.le_trans hd (UInt32.le_iff_toNat_le.mp h.1), Nat.lt_of_le_of_lt (UInt32.le_iff_toNat_le.mp h.2) he⟩
  rcases (Bool.or_eq_true _ _).mp h with hupper | hlower
  · exact hbetween 'A' 'Z' (by decide) (by decide) (of_decide_eq_true hupper)
  · have hrange : decide ('a'.val ≤ c.val) = true ∧ decide (c.val ≤ 'z'.val) = true :=
      (Bool.and_eq_true _ _).mp hlower
    exact hbetween 'a' 'z' (by decide) (by decide) (hrange.imp of_decide_eq_true of_decide_eq_true)

theorem printable_of_isIdentifier {s : String} (h : isIdentifier s = true) : Printable s.toList := by
  have hdigits : Printable "0123456789".toList := printable_of_all (by decide)
  intro c hc
  have hclasses := Reading.continuesIdentifier_of_mem h c hc
  simp only [continuesIdentifier, startsIdentifier, Bool.or_eq_true, decide_eq_true_eq] at hclasses
  rcases hclasses with ((hc | rfl) | rfl) | hc
  · exact (toNat_of_isAlpha hc).1
  · decide
  · decide
  · exact hdigits c (Reading.mem_of_isDigit hc)

theorem printable_of_operand {a : Accessor} {cs : List Char} (h : Reading.Operand a cs) :
    Printable cs := by
  cases h with
  | digits hd =>
    have hdigits : Printable "0123456789".toList := printable_of_all (by decide)
    exact fun c hc => hdigits c (Reading.mem_of_isDigit (hd.2 c hc))
  | quoted s =>
    have hquote := printable_quote s
    rwa [Text.quote, String.toList_ofList] at hquote

/-- What is appended for a segment is a number, quoted, or an identifier. -/
theorem Language.printable_segment (l : Language) (s : String) : Printable (l.style.segment s).toList := by
  have hpoint : Printable ['.'] := printable_singleton (by decide)
  rcases Reading.segment_cases l s with ⟨cs, hcs, h | h⟩ | ⟨h, hs, -⟩
  · rw [h]
    exact .cons (by decide) ((printable_of_operand hcs).append (printable_singleton (by decide)))
  · rw [h]
    exact (printable_of_all (by decide)).append
      ((printable_of_operand hcs).append (printable_singleton (by decide)))
  · rw [h]
    exact .cons (by decide) (printable_of_isIdentifier hs)

theorem Language.printable_expression (l : Language) {receiver : String} (h : isIdentifier receiver = true)
    (p : Path) : Printable (l.expression receiver p).toList := by
  rw [Reading.toList_expression]
  refine (printable_of_isIdentifier h).append fun c hc => ?_
  obtain ⟨s, -, hs⟩ := List.mem_flatMap.mp hc
  exact l.printable_segment s c hs

/-! ### Selections -/

theorem Language.printable_displayName (l : Language) : Printable l.displayName.toList := by
  cases l <;> exact printable_of_all (by decide)

theorem Language.printable_note {l : Language} {note : String} (h : l.note? = some note) :
    Printable note.toList := by
  have hends : Printable l.interface.toList := by cases l <;> exact printable_of_all (by decide)
  unfold note? at h
  split at h
  · cases h
  · rw [← Option.some.inj h, String.toList_append, String.toList_append]
    exact (l.printable_displayName.append (printable_of_all (by decide))).append hends

theorem printable_padded (width : Nat) {s : String} (h : Printable s.toList) :
    Printable (padded width s).toList := by
  rw [padded, toList_pushn]
  exact h.append (printable_replicate (by decide) _)

/-- The line of a note, where the language has one. -/
def Snippet.noteLine (width : Nat) (l : Language) : String :=
  l.note?.elim "" fun n => padded width "" ++ "  note: " ++ n ++ "\n"

theorem Snippet.unpaints_noteLine (width : Nat) (l : Language) :
    Unpaints (noteLine width l) (noteLine width l) := by
  unfold noteLine
  cases h : l.note? with
  | none => exact .of_notMem List.not_mem_nil
  | some note =>
    have hblank : Printable (padded width "").toList := printable_padded width (List.forall_mem_nil _)
    have hnote : Printable note.toList := Language.printable_note h
    exact (((Unpaints.of_printable hblank).append (.of_notMem (by decide))).append
      (.of_printable hnote)).append (.of_notMem (by decide))

/-- Of a snippet only the expression is painted. -/
theorem Snippet.unpaints {s : Snippet} (h : Printable s.code.toList) (width : Nat) :
    Unpaints (s.text true width) (s.text false width) := by
  have htext : ∀ colour, s.text colour width = padded width s.language.displayName ++ "  " ++
      Colour.green.paintIf colour s.code ++ "\n" ++ noteLine width s.language := fun _ => rfl
  have hname : Printable (padded width s.language.displayName).toList :=
    printable_padded width s.language.printable_displayName
  have hcode : Unpaints (Colour.green.paintIf true s.code) (Colour.green.paintIf false s.code) :=
    .paint (.inl rfl) (h.notMem (by decide))
  rw [htext, htext]
  exact ((((Unpaints.of_printable hname).append (.of_notMem (by decide))).append hcode).append
    (.of_notMem (by decide))).append (unpaints_noteLine width s.language)

theorem Selection.unpaints_text (sel : Selection) {receiver : String} (h : isIdentifier receiver = true)
    (ls : List Language) :
    let snippets := ls.map (·.snippet receiver sel.path)
    Unpaints (sel.text snippets true) (sel.text snippets false) := by
  intro snippets
  have hkind : ∀ kind : Kind, '\x1b' ∉ kind.name.toList := by
    intro kind
    cases kind <;> decide
  have htext : ∀ colour, sel.text snippets colour = "path:  " ++ sel.path.display ++ "\nkind:  " ++
      sel.kind.name ++ "\nvalue: " ++ sel.value.compact ++ "\n" ++
      String.join (snippets.map (·.text colour (nameWidth snippets))) := fun _ => rfl
  have hcodes : ∀ s ∈ snippets, Printable s.code.toList := by
    intro s hs
    obtain ⟨l, -, rfl⟩ := List.mem_map.mp hs
    exact l.printable_expression h sel.path
  rw [htext, htext]
  have hpath := (Unpaints.of_notMem (s := "path:  ") (by decide)).append (.of_printable sel.path.printable_display)
  have hkinded := (hpath.append (.of_notMem (s := "\nkind:  ") (by decide))).append (.of_notMem (hkind sel.kind))
  refine Unpaints.append ?_ (.join fun s hs => Snippet.unpaints (hcodes s hs) _)
  exact ((hkinded.append (.of_notMem (by decide))).append (.of_printable sel.value.printable_compact)).append
    (.of_notMem (by decide))

/-- **Colours change nothing else.** A painted tree, whatever is hovered and selected in it, is the plain one
once the colours are taken out; and so is the painted text of a selection, in every list of languages and from
every receiver that is an identifier. No plain text holds an escape character. -/
theorem painting_changes_colours_only :
    (∀ (d : Document) (e : Emphasis), unpainted (d.root.tree.render e true) = d.root.tree.render e false ∧
      '\x1b' ∉ (d.root.tree.render e false).toList) ∧
    ∀ (sel : Selection) (ls : List Language) (receiver : String), isIdentifier receiver = true →
      let snippets := ls.map (·.snippet receiver sel.path)
      unpainted (sel.text snippets true) = sel.text snippets false ∧
        '\x1b' ∉ (sel.text snippets false).toList := by
  refine ⟨fun d e => ?_, fun sel ls receiver h => ?_⟩
  · have hrender := d.root.unpaints_render e
    exact ⟨hrender.unpainted_eq, hrender.clean⟩
  · have htext := sel.unpaints_text h ls
    exact ⟨htext.unpainted_eq, htext.clean⟩

/-- Sequences for colours in a key and in a value. -/
theorem painting_changes_colours_only_quoted :
    let sel : Selection := ⟨["\x1b[32m"], .string "\x1b[0m", .string⟩
    let snippets := [Language.python, .javascript].map (·.snippet "data" sel.path)
    unpainted (sel.text snippets true) = sel.text snippets false := by
  intro sel snippets
  have hreceiver : isIdentifier "data" = true := by decide
  exact (painting_changes_colours_only.2 sel [.python, .javascript] "data" hreceiver).1

end JsonSelect
