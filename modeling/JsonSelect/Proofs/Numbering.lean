import JsonSelect.Proofs.Rendering
import JsonSelect.Proofs.Text.Words

/-! # The numbers beside the lines

A row of a rendered tree ends in labels, one for each unit of its line. The labels begin in the same column in
every row (`Line.take_row`, `Line.drop_row`), and they are read back from their text (`numbers?_labels`). The
tokens of a node are numbered in the order in which its lines show them (`Node.flatMap_ids_lines`), so the
labels of all rows, from top to bottom, count the units of the tree (`Document.render_numbers`). -/

namespace JsonSelect

open Text

/-! ### Labels -/

/-- The number that a label shows: a sign and decimal digits. -/
def labelled? : List Char → Option Nat
  | '#' :: ds => if !ds.isEmpty && ds.all Char.isDigit then some (Nat.ofDigitChars 10 ds 0) else none
  | _ => none

/-- The numbers that a text shows, if it consists of labels with a blank between two of them. -/
def numbers? (cs : List Char) : Option (List Nat) := (parts ' ' cs).mapM labelled?

theorem toList_label (n : Nat) : ("#" ++ n.repr).toList = '#' :: Nat.toDigits 10 n := by
  rw [String.toList_append, Nat.toList_repr]
  rfl

theorem labelled?_label (n : Nat) : labelled? ("#" ++ n.repr).toList = some n := by
  obtain ⟨hne, hdigits⟩ := digits_toDigits n
  have hlabel : (!(Nat.toDigits 10 n).isEmpty && (Nat.toDigits 10 n).all Char.isDigit) = true := by
    rw [Bool.and_eq_true, Bool.not_eq_true', List.isEmpty_eq_false_iff]
    exact ⟨hne, List.all_eq_true.mpr hdigits⟩
  rw [toList_label, labelled?, if_pos hlabel, Nat.ofDigitChars_ten_toDigits]

theorem blank_notMem_label (n : Nat) : ' ' ∉ ("#" ++ n.repr).toList := by
  rw [toList_label]
  intro h
  rcases List.mem_cons.mp h with h | h
  · exact absurd h (by decide)
  · exact absurd ((digits_toDigits n).2 _ h) (by decide)

/-- **Labels** are read back from their text. -/
theorem numbers?_labels {ids : List Nat} (h : ids ≠ []) :
    numbers? (" ".intercalate (ids.map ("#" ++ ·.repr))).toList = some ids := by
  obtain ⟨id, ids, rfl⟩ := List.exists_cons_of_ne_nil h
  have hparts : parts ' ' (" ".intercalate ((id :: ids).map ("#" ++ ·.repr))).toList =
      (id :: ids).map fun n => ("#" ++ n.repr).toList := by
    have hlabels : ∀ q ∈ (id :: ids).map fun n => ("#" ++ n.repr).toList, ' ' ∉ q := by
      intro q hq
      obtain ⟨n, -, rfl⟩ := List.mem_map.mp hq
      exact blank_notMem_label n
    rw [String.toList_intercalate, List.map_map]
    exact parts_intercalate hlabels
  rw [numbers?, hparts, List.mapM_map]
  generalize id :: ids = ns
  induction ns with
  | nil => rfl
  | cons n ns ih => rw [List.mapM_cons, ih, Function.comp_apply, labelled?_label]; rfl

/-! ### Columns -/

namespace Tree

variable {t : Tree}

/-- **The width** is that of a widest line, if there are lines. -/
theorem max?_lengths (h : t.lines ≠ []) : (t.lines.map fun l => l.text.length).max? = some t.width := by
  have hne : (t.lines.map fun l => l.text.length) ≠ [] := mt List.map_eq_nil_iff.mp h
  obtain ⟨m, hm⟩ := Option.ne_none_iff_exists'.mp (mt List.max?_eq_none_iff.mp hne)
  rw [width, List.foldl_max, hm, Option.getD_some, Nat.zero_max]

theorem length_le_width {l : Line} (hl : l ∈ t.lines) : l.text.length ≤ t.width :=
  (List.max?_eq_some_iff.mp (max?_lengths (List.ne_nil_of_mem hl))).2 _ (List.mem_map_of_mem hl)

theorem exists_length_eq_width (h : t.lines ≠ []) : ∃ l ∈ t.lines, l.text.length = t.width :=
  List.mem_map.mp (List.max?_eq_some_iff.mp (max?_lengths h)).1

end Tree

namespace Line

variable {marks : Array Mark} {width : Nat} {l : Line}

/-- What stands in front of the labels of a row. -/
def front (marks : Array Mark) (width : Nat) (l : Line) : List Char :=
  (l.mark marks).char :: ' ' :: (l.text.toList ++ List.replicate (width - l.text.length + 2) ' ')

theorem length_front (h : l.text.length ≤ width) : (l.front marks width).length = 4 + width := by
  rw [front, List.length_cons, List.length_cons, List.length_append, List.length_replicate,
    String.length_toList]
  omega

theorem row_eq (marks : Array Mark) (width : Nat) (l : Line) :
    l.row marks width = l.front marks width ++ (" ".intercalate (l.ids.map ("#" ++ ·.repr))).toList := by
  simp [row, front, tail, List.replicate_succ']

theorem take_row (h : l.text.length ≤ width) : (l.row marks width).take (4 + width) = l.front marks width := by
  rw [row_eq, ← length_front h, List.take_left]

/-- **The labels** of a row stand behind the widest line. -/
theorem drop_row (h : l.text.length ≤ width) : (l.row marks width).drop (4 + width) =
    (" ".intercalate (l.ids.map ("#" ++ ·.repr))).toList := by
  rw [row_eq, ← length_front h, List.drop_left]

end Line

/-! ### Numbers of the units -/

namespace Node

/-- The lines of a node show the numbers from its first one on, behind those of what leads up to it. -/
def Counts (n : Node) : Prop := ∀ depth first lead comma,
  (n.lines depth first lead comma).flatMap Line.ids =
    lead.filterMap Token.unit ++ List.range' first n.unitCount

theorem flatMap_ids_itemLines {ns : List Node} (h : ∀ n ∈ ns, n.Counts) (depth first : Nat) :
    (itemLines depth first ns).flatMap Line.ids = List.range' first (itemUnitCount ns) := by
  induction ns generalizing first with
  | nil => rfl
  | cons n ns ih =>
    obtain ⟨hn, hns⟩ := List.forall_mem_cons.mp h
    rw [itemLines, List.flatMap_append, hn, ih hns, List.filterMap_nil, List.nil_append, itemUnitCount,
      List.range'_append_1]

/-- The key of a member comes in front of the units of its node. -/
theorem flatMap_ids_memberLines {ms : List (Key × Node)} (h : ∀ m ∈ ms, m.2.Counts) (depth first : Nat) :
    (memberLines depth first ms).flatMap Line.ids = List.range' first (memberUnitCount ms) := by
  induction ms generalizing first with
  | nil => rfl
  | cons m ms ih =>
    obtain ⟨hm, hms⟩ := List.forall_mem_cons.mp h
    have hkey : [⟨Text.quote m.1.name, some first⟩, Token.plain ": "].filterMap Token.unit = [first] := rfl
    have hcount : memberUnitCount (m :: ms) = m.2.unitCount + memberUnitCount ms + 1 := by
      rw [memberUnitCount]
      omega
    rw [memberLines, List.flatMap_append, hm, ih hms, hkey, hcount, List.range'_succ,
      ← List.range'_append_1, List.singleton_append, List.cons_append]

/-- The brackets of a container come around the units between them. -/
theorem range'_brackets (first count : Nat) :
    first :: (List.range' (first + 1) count ++ [first + 1 + count]) = List.range' first (count + 2) := by
  rw [List.range'_succ, List.range'_1_concat]

/-- **The numbers of a node's units**, as its lines show them. -/
theorem flatMap_ids_lines (n : Node) : n.Counts := by
  induction n using Node.induction with
  | scalar span s =>
    intro depth first lead comma
    simp [lines, unitCount, Line.ids]
  | array span items ih =>
    intro depth first lead comma
    cases items with
    | nil => simp [lines, unitCount, itemUnitCount, Line.ids, List.range'_succ]
    | cons n ns =>
      have hinner := flatMap_ids_itemLines ih (depth + 1) (first + 1)
      rw [lines, List.flatMap_cons, List.flatMap_append, hinner, unitCount, ← range'_brackets]
      simp [Line.ids]
  | object span members ih =>
    intro depth first lead comma
    cases members with
    | nil => simp [lines, unitCount, memberUnitCount, Line.ids, List.range'_succ]
    | cons m ms =>
      have hinner := flatMap_ids_memberLines ih (depth + 1) (first + 1)
      rw [lines, List.flatMap_cons, List.flatMap_append, hinner, unitCount, ← range'_brackets]
      simp [Line.ids]

theorem flatMap_ids_tree (n : Node) : n.tree.lines.flatMap Line.ids = List.range n.tree.units.length := by
  have hunits : n.tree.units.length = n.unitCount := n.length_units []
  rw [hunits, List.range_eq_range']
  exact n.flatMap_ids_lines 0 0 [] false

end Node

/-! ### Labels of a document -/

/-- A unit of the loaded document can be selected by its number, and nothing else can. -/
theorem Session.apply_select_iff {s : Session} {d : Document} (h : s.loaded = .document d) (id : Nat) :
    (∃ s', s.apply (.select id) = .ok s') ↔ id < d.root.tree.units.length := by
  have hdocument : s.document = .ok d := document_eq_ok.mpr h
  constructor
  · rintro ⟨s', hs'⟩
    obtain ⟨u, hu, -⟩ := bind_eq_ok.mp hs'
    obtain ⟨d', hd', hid⟩ := bind_eq_ok.mp hu
    obtain rfl : d = d' := Except.ok.inj (hdocument.symm.trans hd')
    exact (List.getElem?_eq_some_iff.mp (elim_eq_ok.mp hid)).1
  · intro hid
    have hunit : s.unit id = .ok d.root.tree.units[id] :=
      bind_eq_ok.mpr ⟨d, hdocument, elim_eq_ok.mpr (List.getElem?_eq_getElem hid)⟩
    exact ⟨_, bind_eq_ok.mpr ⟨_, hunit, rfl⟩⟩

/-- **The numbers of a rendered document.** The text has one row for each line of the document's tree. No line is
wider than the width of the tree, which is that of a line; so each row is filled up to the same column, and from
there on it shows one number or more. From top to bottom the numbers count the units of the document, and
they are those that can be selected in a session with the document. -/
theorem Document.render_numbers (d : Document) (e : Emphasis) :
    let t := d.root.tree
    ∃ (rows : List (List Char)) (shown : List (List Nat)),
      parts '\n' (t.render e false).toList = rows ++ [[]] ∧
      rows.length = t.lines.length ∧
      (∀ l ∈ t.lines, l.text.length ≤ t.width) ∧ (∃ l ∈ t.lines, l.text.length = t.width) ∧
      (∀ (i : Nat) (l : Line), t.lines[i]? = some l → ∃ row mark, rows[i]? = some row ∧
        row.take (4 + t.width) =
          mark :: ' ' :: (l.text.toList ++ List.replicate (t.width - l.text.length + 2) ' ')) ∧
      (rows.map fun row => numbers? (row.drop (4 + t.width))) = shown.map some ∧
      (∀ ids ∈ shown, ids ≠ []) ∧ shown.flatten = List.range t.units.length ∧
      ∀ (s : Session) (id : Nat), id ∈ shown.flatten ↔
        ∃ s', ({ s with loaded := .document d } : Session).apply (.select id) = .ok s' := by
  intro t
  have hids : ∀ l ∈ t.lines, l.ids ≠ [] := fun l hl => by
    obtain ⟨p, hp⟩ := Node.exists_at hl
    exact hp.1
  have hshown : (t.lines.map Line.ids).flatten = List.range t.units.length := d.root.flatMap_ids_tree
  refine ⟨t.rows e, t.lines.map Line.ids, parts_render d.root e, List.length_map _,
    fun l hl => Tree.length_le_width hl, Tree.exists_length_eq_width (Node.lines_ne_nil _ _ _ _ _),
    fun i l hl => ?_, ?_, fun ids h => ?_, hshown, fun s id => ?_⟩
  · have hrow : (t.rows e)[i]? = some (l.row (t.marks e) t.width) := by
      rw [Tree.rows, List.getElem?_map, hl, Option.map_some]
    exact ⟨_, _, hrow, Line.take_row (Tree.length_le_width (List.mem_of_getElem? hl))⟩
  · rw [Tree.rows, List.map_map, List.map_map]
    refine List.map_congr_left fun l hl => ?_
    rw [Function.comp_apply, Line.drop_row (Tree.length_le_width hl), numbers?_labels (hids l hl),
      Function.comp_apply]
  · obtain ⟨l, hl, rfl⟩ := List.mem_map.mp h
    exact hids l hl
  · rw [hshown, List.mem_range, Session.apply_select_iff rfl]

end JsonSelect
