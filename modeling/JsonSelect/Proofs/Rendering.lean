import JsonSelect.Proofs.Session
import JsonSelect.Proofs.Text.Parts
import JsonSelect.Proofs.Tree.Displayed
import JsonSelect.Proofs.Tree.Extent
import JsonSelect.Proofs.Tree.Printed

/-! # The marks in front of the lines

A rendered tree is one row of text for each line of the tree, and no token breaks a row (`parts_render`). The
mark of a line is the mark of the path that the line is at (`Line.mark_of_at`), and the lines at the path of a
node are the first and the last one of the node. What a session selects and hovers are nodes of its document,
so the marks show where these nodes begin and end (`Session.run_render_marks`). -/

namespace JsonSelect

open Text Written

/-! ### Marks -/

@[simp] theorem Mark.stronger_self (m : Mark) : m.stronger m = m := by cases m <;> rfl

@[simp] theorem Mark.stronger_blank (m : Mark) : m.stronger .blank = m := by cases m <;> rfl

@[simp] theorem Mark.blank_stronger (m : Mark) : Mark.blank.stronger m = m := by cases m <;> rfl

theorem Mark.paint_plain (m : Mark) (text : String) : m.paint false text = text := by
  cases m <;> rfl

namespace Emphasis

variable {e : Emphasis} {p : Path}

theorem markOf_eq_selected : e.markOf p = .selected ↔ e.selected = some p := by
  unfold markOf
  split_ifs <;> simp_all

theorem markOf_eq_hover : e.markOf p = .hover ↔ e.hover = some p ∧ e.selected ≠ some p := by
  unfold markOf
  split_ifs <;> simp_all

end Emphasis

theorem Tree.getElem?_marks (t : Tree) (e : Emphasis) (id : Nat) :
    (t.marks e)[id]? = (t.path? id).map e.markOf := by
  rw [Tree.marks, List.getElem?_toArray, List.getElem?_map, Tree.path?, Tree.unit?, Option.map_map]
  rfl

/-- Tokens that have one mark where they are units have that mark together. -/
theorem Mark.foldl_stronger {marks : Array Mark} {m : Mark} {ts : List Token}
    (h : ∀ id ∈ ts.filterMap Token.unit, marks[id]? = some m) (before : Mark) :
    (before = .blank ∨ before = m) →
    ts.foldl (fun m token => m.stronger (token.mark marks)) before =
      if ts.filterMap Token.unit = [] then before else m := by
  induction ts generalizing before with
  | nil => simp
  | cons token ts ih =>
    intro hbefore
    rw [List.foldl_cons]
    cases hunit : token.unit with
    -- a token that is no unit is blank, and the mark so far stays
    | none =>
      rw [List.filterMap_cons_none hunit] at h ⊢
      rw [Token.mark, hunit, Option.bind_none, Option.getD_none, stronger_blank, ih h before hbefore]
    | some id =>
      rw [List.filterMap_cons_some hunit] at h ⊢
      obtain ⟨hid, hids⟩ := List.forall_mem_cons.mp h
      have hmark : token.mark marks = m := by rw [Token.mark, hunit, Option.bind_some, hid, Option.getD_some]
      have hstronger : before.stronger m = m := by rcases hbefore with rfl | rfl <;> simp
      rw [hmark, hstronger, ih hids m (.inr rfl), ite_self, if_neg (List.cons_ne_nil _ _)]

/-- **The mark of a line** is the mark of its path. -/
theorem Line.mark_of_at {t : Tree} {l : Line} {p : Path} (h : l.At t p) (e : Emphasis) :
    l.mark (t.marks e) = e.markOf p := by
  have hmarks : ∀ id ∈ l.tokens.filterMap Token.unit, (t.marks e)[id]? = some (e.markOf p) := by
    intro id hid
    rw [Tree.getElem?_marks, h.2 id hid, Option.map_some]
  have hids : l.tokens.filterMap Token.unit ≠ [] := h.1
  rw [Line.mark, Mark.foldl_stronger hmarks _ (.inl rfl), if_neg hids]

/-! ### Rows of a tree -/

namespace Line

/-- What stands in a row behind the text of the line: the filling and the numbers of the units. -/
def tail (width : Nat) (l : Line) : List Char :=
  List.replicate (width - l.text.length) ' ' ++
    ' ' :: ' ' :: (" ".intercalate (l.ids.map ("#" ++ ·.repr))).toList

/-- The row of a line: the mark, a blank, the text of the line, and the rest. -/
def row (marks : Array Mark) (width : Nat) (l : Line) : List Char :=
  (l.mark marks).char :: ' ' :: (l.text.toList ++ l.tail width)

theorem toList_render (marks : Array Mark) (width : Nat) (l : Line) :
    (l.render marks false width).toList = l.row marks width ++ ['\n'] := by
  have htokens : (l.tokens.map fun token => (token.mark marks).paint false token.text) =
      l.tokens.map Token.text := List.map_congr_left fun token _ => Mark.paint_plain _ _
  have hrender : l.render marks false width =
      String.singleton (l.mark marks).char ++ " " ++ l.indentation ++
        String.join (l.tokens.map fun token => (token.mark marks).paint false token.text) ++
        "".pushn ' ' (width - l.text.length) ++ "  " ++
        " ".intercalate (l.ids.map ("#" ++ ·.repr)) ++ "\n" := rfl
  rw [hrender, htokens]
  simp [row, tail, text, toList_pushn]

theorem printable_ids (l : Line) : Printable (" ".intercalate (l.ids.map ("#" ++ ·.repr))).toList := by
  refine printable_intercalate (printable_of_all (by decide)) fun s hs => ?_
  obtain ⟨id, -, rfl⟩ := List.mem_map.mp hs
  rw [String.toList_append, Nat.toList_repr]
  exact (printable_of_all (by decide)).append (printable_decimalChars id)

theorem printable_tail (width : Nat) (l : Line) : Printable (l.tail width) :=
  (printable_replicate (by decide) _).append (.cons (by decide) (.cons (by decide) l.printable_ids))

theorem printable_text {l : Line} (h : l.Printed) : Printable l.text.toList := by
  have htokens : Printable (String.join (l.tokens.map Token.text)).toList := by
    refine printable_join fun s hs => ?_
    obtain ⟨token, htoken, rfl⟩ := List.mem_map.mp hs
    exact h token htoken
  rw [text, String.toList_append, indentation, toList_indent]
  exact (printable_replicate (by decide) _).append htokens

theorem printable_row {l : Line} (h : l.Printed) (marks : Array Mark) (width : Nat) :
    Printable (l.row marks width) := by
  have hmark : ∀ m : Mark, 0x20 ≤ m.char.toNat := by
    intro m
    cases m <;> decide
  exact .cons (hmark _) (.cons (by decide) ((printable_text h).append (printable_tail width l)))

end Line

theorem Node.lines_ne_nil (n : Node) (depth first : Nat) (lead : List Token) (comma : Bool) :
    n.lines depth first lead comma ≠ [] := by
  rcases n with ⟨_, _⟩ | ⟨_, _ | _⟩ | ⟨_, _ | _⟩ <;> simp only [lines, ne_eq, reduceCtorEq, not_false_eq_true]

/-- The rows of a tree. -/
def Tree.rows (t : Tree) (e : Emphasis) : List (List Char) := t.lines.map (Line.row (t.marks e) t.width)

/-- **The rows of a tree** are the parts of its text. -/
theorem parts_render (n : Node) (e : Emphasis) :
    parts '\n' (n.tree.render e false).toList = n.tree.rows e ++ [[]] := by
  have hrows : ∀ row ∈ n.tree.rows e, '\n' ∉ row := by
    intro row hrow
    obtain ⟨l, hl, rfl⟩ := List.mem_map.mp hrow
    have hprinted := n.printed_lines 0 0 [] false (List.forall_mem_nil _) l hl
    exact (Line.printable_row hprinted _ _).notMem (by decide)
  rw [← parts_flatMap hrows, Tree.render, String.toList_join, List.flatMap_map, Tree.rows, List.flatMap_map]
  simp only [Line.toList_render]

/-! ### The marks of a tree -/

theorem Mark.char_eq_selected {m : Mark} : m.char = '>' ↔ m = .selected := by
  cases m <;> simp [char]

theorem Mark.char_eq_hover {m : Mark} : m.char = '~' ↔ m = .hover := by
  cases m <;> simp [char]

namespace Node

variable {root : Node} {e : Emphasis} {i : Nat} {l : Line}

/-- A path is made of the segments of accessors that lead to a node. -/
def Reaches (root : Node) (p : Path) : Prop := ∃ as m, root.Leads as m ∧ p = as.map Accessor.segment

theorem Reaches.of_mem_units {u : TreeUnit} (h : u ∈ root.tree.units) : root.Reaches u.path := by
  obtain ⟨as, hp, hl⟩ := leads_of_mem_units h
  exact ⟨as, _, hl, hp⟩

theorem mark_eq_iff {m : Mark} (hl : l ∈ root.tree.lines) :
    l.mark (root.tree.marks e) = m ↔ ∃ p, l.At root.tree p ∧ e.markOf p = m := by
  obtain ⟨q, hq⟩ := exists_at hl
  rw [Line.mark_of_at hq]
  constructor
  · exact fun h => ⟨q, hq, h⟩
  · rintro ⟨p, hp, h⟩
    rwa [hq.unique hp]

/-- A line is at one of some paths when it is the first or the last one of the node at such a path. -/
theorem exists_at_iff (hd : root.Distinct) {P : Path → Prop} (hP : ∀ p, P p → root.Reaches p)
    (hl : root.tree.lines[i]? = some l) :
    (∃ p, l.At root.tree p ∧ P p) ↔ ∃ p n, P p ∧ root.at? p = some n ∧ root.tree.EndsAt p n i := by
  constructor
  · rintro ⟨p, hat, hp⟩
    obtain ⟨as, m, hm, rfl⟩ := hP p hp
    exact ⟨_, m, hp, at?_of_leads hd hm, (at_iff_endsAt hd hm hl).mp hat⟩
  · rintro ⟨p, n, hp, hn, hends⟩
    obtain ⟨as, m, hm, rfl⟩ := hP p hp
    -- the path leads to one node only
    obtain rfl := Option.some.inj ((at?_of_leads hd hm).symm.trans hn)
    exact ⟨_, (at_iff_endsAt hd hm hl).mpr hends, hp⟩

/-- **The lines of the selected path** are the first and the last one of its node. -/
theorem mark_eq_selected (hd : root.Distinct) (hs : ∀ p, e.selected = some p → root.Reaches p)
    (hl : root.tree.lines[i]? = some l) : l.mark (root.tree.marks e) = .selected ↔
      ∃ p n, e.selected = some p ∧ root.at? p = some n ∧ root.tree.EndsAt p n i := by
  rw [mark_eq_iff (List.mem_of_getElem? hl), ← exists_at_iff hd hs hl]
  simp only [Emphasis.markOf_eq_selected]

/-- **The lines of the hovered path** are those of its node, unless the path is selected too. -/
theorem mark_eq_hover (hd : root.Distinct) (hs : ∀ p, e.hover = some p → root.Reaches p)
    (hl : root.tree.lines[i]? = some l) : l.mark (root.tree.marks e) = .hover ↔
      ∃ p n, (e.hover = some p ∧ e.selected ≠ some p) ∧ root.at? p = some n ∧
        root.tree.EndsAt p n i := by
  rw [mark_eq_iff (List.mem_of_getElem? hl), ← exists_at_iff hd (fun p hp => hs p hp.1) hl]
  simp only [Emphasis.markOf_eq_hover]

theorem countP_rows (root : Node) (e : Emphasis) : (root.tree.rows e).countP (·.head? = some '>') =
    root.tree.lines.countP fun l => l.mark (root.tree.marks e) = .selected := by
  rw [Tree.rows, List.countP_map]
  refine List.countP_congr fun l _ => ?_
  simp [Line.row, Mark.char_eq_selected]

theorem countP_rows_of_selected {as : List Accessor} {m : Node} (hd : root.Distinct) (h : root.Leads as m)
    (hs : e.selected = some (as.map Accessor.segment)) :
    (root.tree.rows e).countP (·.head? = some '>') = m.endCount := by
  rw [countP_rows]
  refine (within_tree hd h).countP fun l hl => ?_
  have hmark := mark_eq_iff (e := e) (m := .selected) hl
  simp only [Emphasis.markOf_eq_selected, hs, Option.some.injEq, exists_eq_right'] at hmark
  rw [decide_eq_true_eq, hmark]

theorem countP_rows_of_none (h : e.selected = none) :
    (root.tree.rows e).countP (·.head? = some '>') = 0 := by
  rw [countP_rows, List.countP_eq_zero]
  intro l hl
  have hmark := mark_eq_iff (e := e) (m := .selected) hl
  simp only [Emphasis.markOf_eq_selected, h] at hmark
  simpa using hmark

theorem endCount_eq (n : Node) : n.endCount = 1 ∨ n.endCount = 2 := by
  unfold endCount
  split <;> simp

end Node

namespace Session

section
variable {s : Session} {d : Document}

theorem selected_emphasis {p : Path} :
    s.emphasis.selected = some p ↔ ∃ sel, s.selection = some sel ∧ sel.path = p :=
  Option.map_eq_some_iff

theorem Sound.reaches_selected (hs : s.Sound) (h : s.loaded = .document d) :
    ∀ p, s.emphasis.selected = some p → d.root.Reaches p := by
  intro p hp
  obtain ⟨sel, hsel, rfl⟩ := selected_emphasis.mp hp
  obtain ⟨d', hd, u, hu, rfl⟩ := hs.selection sel hsel
  obtain rfl : d' = d := Loaded.document.inj (hd.symm.trans h)
  exact .of_mem_units hu

theorem Sound.reaches_hover (hs : s.Sound) (h : s.loaded = .document d) :
    ∀ p, s.emphasis.hover = some p → d.root.Reaches p := by
  intro p hp
  obtain ⟨d', hd, u, hu, rfl⟩ := hs.hover p hp
  obtain rfl : d' = d := Loaded.document.inj (hd.symm.trans h)
  exact .of_mem_units hu

end

/-- **The marks of a rendered session.** The text has one row for each line of the document's tree. A row is
marked as selected when its line is the first or the last one of the selected node, as hovered when its line
is the first or the last one of the hovered node and that node is not the selected one, and not marked
otherwise. So one or two rows are marked as selected, or none where nothing is. -/
theorem run_render_marks (receiver : String) (language : Language) (es : List Event) {d : Document}
    (h : ((start receiver language).run es).loaded = .document d) :
    let s := (start receiver language).run es
    let t := d.root.tree
    ∃ text rows, s.render? false = some text ∧ Text.parts '\n' text.toList = rows ++ [[]] ∧
      rows.length = t.lines.length ∧
      (∀ (i : Nat) (l : Line), t.lines[i]? = some l → ∃ mark rest,
        rows[i]? = some (mark :: ' ' :: (l.text.toList ++ rest)) ∧
        (mark = '>' ↔ ∃ sel n, s.selection = some sel ∧ d.root.at? sel.path = some n ∧
          t.EndsAt sel.path n i) ∧
        (mark = '~' ↔ ∃ p n, s.hover = some p ∧ (∀ sel, s.selection = some sel → sel.path ≠ p) ∧
          d.root.at? p = some n ∧ t.EndsAt p n i) ∧
        (mark = '>' ∨ mark = '~' ∨ mark = ' ')) ∧
      (s.selection = none → rows.countP (·.head? = some '>') = 0) ∧
      ∀ sel, s.selection = some sel → ∃ n, d.root.at? sel.path = some n ∧
        rows.countP (·.head? = some '>') = n.endCount ∧ (n.endCount = 1 ∨ n.endCount = 2) := by
  intro s t
  have hs : s.Sound := sound_run (sound_start receiver language) es
  have hd := Document.distinct_of_parse (hs.loaded d h)
  have hselected := hs.reaches_selected h
  have hunselected : ∀ p, s.emphasis.selected ≠ some p ↔
      ∀ sel, s.selection = some sel → sel.path ≠ p := by
    intro p
    simp only [ne_eq, selected_emphasis, not_exists, not_and]
  have hrender : s.render? false = some (t.render s.emphasis false) := by
    rw [render?, tree?, document?, h]
    rfl
  refine ⟨_, t.rows s.emphasis, hrender, parts_render _ _, List.length_map _, fun i l hl => ?_,
    fun hnone => ?_, fun sel hsel => ?_⟩
  · have hrow : (t.rows s.emphasis)[i]? = some (l.row (t.marks s.emphasis) t.width) := by
      rw [Tree.rows, List.getElem?_map, hl, Option.map_some]
    refine ⟨_, _, hrow, ?_, ?_, ?_⟩
    · rw [Mark.char_eq_selected, Node.mark_eq_selected hd hselected hl]
      constructor
      · rintro ⟨p, n, hp, hn⟩
        obtain ⟨sel, hsel, rfl⟩ := selected_emphasis.mp hp
        exact ⟨sel, n, hsel, hn⟩
      · rintro ⟨sel, n, hsel, hn⟩
        exact ⟨sel.path, n, selected_emphasis.mpr ⟨sel, hsel, rfl⟩, hn⟩
    · rw [Mark.char_eq_hover, Node.mark_eq_hover hd (hs.reaches_hover h) hl]
      simp only [hunselected, and_assoc]
      rfl
    · cases l.mark (t.marks s.emphasis) <;> simp [Mark.char]
  · exact Node.countP_rows_of_none (by rw [emphasis, hnone, Option.map_none])
  · have hemphasis : s.emphasis.selected = some sel.path := selected_emphasis.mpr ⟨sel, hsel, rfl⟩
    obtain ⟨as, m, hm, hp⟩ := hselected _ hemphasis
    rw [hp] at hemphasis ⊢
    exact ⟨m, Node.at?_of_leads hd hm, Node.countP_rows_of_selected hd hm hemphasis, m.endCount_eq⟩

/-- A selected array, and a hovered one in it that is empty. -/
theorem run_render_marks_nested : ∃ d text rows,
    let s := (start "data" .python).run [.edit "[null,[]]", .select 0, .hover (some 2)]
    s.loaded = .document d ∧ s.render? false = some text ∧ Text.parts '\n' text.toList = rows ++ [[]] ∧
      rows.countP (·.head? = some '>') = 2 ∧ ∃ row, rows[2]? = some ('~' :: row) := by
  let f : Form := .array [] [(⟨[], []⟩, .literal .null), (⟨[], []⟩, .array [] [])]
  have hg : f.Grammatical := by
    simp [f, Form.Grammatical, Form.Each, Form.EachItem, Blanks]
  have ha : f.Accepted := by
    simp [f, Form.Accepted, Form.Each, Form.EachItem]
  let d : Document := ⟨"[null,[]]", .array ⟨0, 9⟩ [.scalar ⟨1, 5⟩ .null, .array ⟨6, 8⟩ []]⟩
  have hp : Document.parse "[null,[]]" = .ok d := Document.parse_chars hg ha (by decide)
  have hrun : (start "data" .python).run [.edit "[null,[]]", .select 0, .hover (some 2)] =
      ⟨"data", .python, .document d, some ⟨[], d.root.value, .array⟩, some ["1"]⟩ := by
    have hedit : Loaded.ofText "[null,[]]" = .document d := by rw [Loaded.ofText, hp]
    rw [run, List.foldl_cons, advance, apply, hedit]
    rfl
  obtain ⟨text, rows, hrender, hparts, -, hrows, -, hcount⟩ :=
    run_render_marks "data" .python [.edit "[null,[]]", .select 0, .hover (some 2)] (by rw [hrun])
  rw [hrun] at hrows hcount
  obtain ⟨n, hn, hcount, -⟩ := hcount _ rfl
  obtain rfl : d.root = n := Option.some.inj hn
  obtain ⟨mark, rest, hrow, -, hhover, -⟩ := hrows 2 _ rfl
  have hlays : d.root.tree.Lays ["1"] (.array ⟨6, 8⟩ []) [⟨1, [⟨"[", some 2⟩, ⟨"]", some 3⟩]⟩] :=
    ⟨1, 2, [], false, ⟨[_], rfl⟩, List.forall_mem_nil _, rfl⟩
  have hends : d.root.tree.EndsAt ["1"] (.array ⟨6, 8⟩ []) 2 :=
    ⟨d.root.tree.lines.take 2, _, [_], rfl, hlays, .inl rfl⟩
  have hmark : mark = '~' := by
    refine hhover.mpr ⟨["1"], _, rfl, fun sel hsel => ?_, rfl, hends⟩
    cases hsel
    exact (List.cons_ne_nil _ _).symm
  rw [hmark] at hrow
  exact ⟨d, text, rows, by rw [hrun], hrender, hparts, hcount, _, hrow⟩

end Session

end JsonSelect
