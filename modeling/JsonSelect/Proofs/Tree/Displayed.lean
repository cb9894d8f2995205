import JsonSelect.Proofs.Tree.Scalars
import JsonSelect.Rendering

/-! # Documents as they are displayed

The lines of a tree, written out, are the value of its node on many lines (`Node.text_tree`). So they read as
a document again, with the same value. What a tree shows, apart from spans, is settled by the value
(`Node.sameShown_of_value`), and the second document looks like the first (`Document.parse_text_tree`). -/

namespace JsonSelect

open Reading Written

/-- The lines of a tree, written out. -/
def Tree.text (t : Tree) : String := String.join (t.lines.map fun l => l.text ++ "\n")

/-! ### Lines and the text of a value -/

/-- The text of tokens. -/
def tokenChars (ts : List Token) : List Char := ts.flatMap (·.text.toList)

/-- The text of lines. -/
def lineChars (ls : List Line) : List Char :=
  ls.flatMap fun l => indentation l.depth ++ tokenChars l.tokens ++ ['\n']

theorem lineChars_cons (l : Line) (ls : List Line) :
    lineChars (l :: ls) = indentation l.depth ++ tokenChars l.tokens ++ '\n' :: lineChars ls := by
  simp [lineChars]

theorem lineChars_append (ls ls' : List Line) : lineChars (ls ++ ls') = lineChars ls ++ lineChars ls' :=
  List.flatMap_append

theorem toList_text (t : Tree) : t.text.toList = lineChars t.lines := by
  rw [Tree.text, String.toList_join, List.flatMap_map, lineChars]
  refine List.flatMap_congr fun l _ => ?_
  simp [Line.text, Line.indentation, toList_indent, String.toList_join, tokenChars, List.flatMap_map]

/-- Entries on lines of their own, with a comma behind each but the last. -/
def entryLines (depth : Nat) : List String → List Char
  | [] => []
  | t :: ts => indentation depth ++ t.toList ++ tokenChars (Node.commaIf !ts.isEmpty) ++
      '\n' :: entryLines depth ts

theorem entryLines_cons (depth : Nat) (t : String) (ts : List String) : entryLines depth (t :: ts) =
    (",\n".intercalate ((t :: ts).map (Value.indent depth ++ ·))).toList ++ ['\n'] := by
  induction ts generalizing t with
  | nil => simp [entryLines, tokenChars, Node.commaIf, toList_indent]
  | cons t' ts ih =>
    have hlines : entryLines depth (t :: t' :: ts) =
        indentation depth ++ t.toList ++ [','] ++ '\n' :: entryLines depth (t' :: ts) := rfl
    rw [hlines, ih]
    simp [toList_indent]

/-- A container with entries has its brackets on lines of their own. -/
theorem toList_block_cons (left right : String) (depth : Nat) (t : String) (ts : List String) :
    (Value.block left right depth (t :: ts)).toList = left.toList ++
      '\n' :: (entryLines (depth + 1) (t :: ts) ++ indentation depth ++ right.toList) := by
  rw [entryLines_cons]
  simp [Value.block, toList_indent]

namespace Node

/-- The lines of a node are its value on many lines. -/
def Shown (n : Node) : Prop := ∀ depth first lead comma,
  lineChars (n.lines depth first lead comma) = indentation depth ++ tokenChars lead ++
    (n.value.prettyAt depth).toList ++ tokenChars (commaIf comma) ++ ['\n']

theorem lineChars_itemLines {ns : List Node} (h : ∀ n ∈ ns, n.Shown) (depth first : Nat) :
    lineChars (itemLines depth first ns) = entryLines depth (ns.map (·.value.prettyAt depth)) := by
  induction ns generalizing first with
  | nil => rfl
  | cons n ns ih =>
    obtain ⟨hn, hns⟩ := List.forall_mem_cons.mp h
    rw [itemLines, lineChars_append, hn, ih hns, List.map_cons, entryLines, List.isEmpty_map]
    simp [tokenChars]

theorem lineChars_memberLines {ms : List (Key × Node)} (h : ∀ m ∈ ms, m.2.Shown) (depth first : Nat) :
    lineChars (memberLines depth first ms) =
      entryLines depth (ms.map fun m => Text.quote m.1.name ++ ": " ++ m.2.value.prettyAt depth) := by
  induction ms generalizing first with
  | nil => rfl
  | cons m ms ih =>
    obtain ⟨hm, hms⟩ := List.forall_mem_cons.mp h
    rw [memberLines, lineChars_append, hm, ih hms, List.map_cons, entryLines, List.isEmpty_map]
    simp [tokenChars, Token.plain]

/-- **The lines of a node** are its value on many lines. -/
theorem shown (n : Node) : n.Shown := by
  induction n using Node.induction with
  | scalar span s =>
    intro depth first lead comma
    simp [lines, value, Value.prettyAt, lineChars, tokenChars]
  | array span items ih =>
    intro depth first lead comma
    rw [value, itemValues_eq_map, Value.prettyAt, Value.prettyItems_eq_map, List.map_map]
    cases items with
    | nil => simp [lines, Value.block, lineChars, tokenChars]
    | cons n ns =>
      rw [lines, lineChars_cons, lineChars_append, lineChars_itemLines ih, List.map_cons, List.map_cons,
        toList_block_cons]
      simp [lineChars, tokenChars, Function.comp_def]
  | object span members ih =>
    intro depth first lead comma
    rw [value, memberValues_eq_map, Value.prettyAt, Value.prettyMembers_eq_map, List.map_map]
    cases members with
    | nil => simp [lines, Value.block, lineChars, tokenChars]
    | cons m ms =>
      rw [lines, lineChars_cons, lineChars_append, lineChars_memberLines ih, List.map_cons, List.map_cons,
        toList_block_cons]
      simp [lineChars, tokenChars, Function.comp_def]

/-- **The lines of a tree**, written out, are the value of its node on many lines. -/
theorem text_tree (n : Node) : n.tree.text = n.value.pretty ++ "\n" := by
  rw [← String.toList_inj, toList_text, tree, treeAt, n.shown]
  simp [indentation, tokenChars, commaIf, Value.pretty]

end Node

/-! ### What the value settles -/

/-- What a unit is, apart from where it stands: its role, and the path, value and kind that it selects. -/
def TreeUnit.shown (u : TreeUnit) : Role × Selection := (u.role, u.select)

namespace Node

/-- A node of the value of an array. -/
theorem eq_array_of_value {n : Node} {vs : List Value} (h : n.value = .array vs) :
    ∃ span items, n = .array span items ∧ items.map value = vs := by
  cases n with
  | scalar span s => cases h
  | array span items => exact ⟨span, items, rfl, by rw [← itemValues_eq_map, Value.array.inj h]⟩
  | object span members => cases h

/-- A node of the value of an object. -/
theorem eq_object_of_value {n : Node} {vs : List (String × Value)} (h : n.value = .object vs) :
    ∃ span members, n = .object span members ∧ members.map (fun m => (m.1.name, m.2.value)) = vs := by
  cases n with
  | scalar span s => cases h
  | array span items => cases h
  | object span members => exact ⟨span, members, rfl, by rw [← memberValues_eq_map, Value.object.inj h]⟩

theorem eq_scalar_of_value {n : Node} {s : Scalar} (h : n.value = .scalar s) :
    ∃ span, n = .scalar span s := by
  cases n with
  | scalar span s' => exact ⟨span, by rw [Value.scalar.inj h]⟩
  | array span items => cases h
  | object span members => cases h

/-- Two nodes show the same units and the same lines. -/
structure SameShown (n n' : Node) : Prop where
  value : n.value = n'.value
  units : ∀ p, (n.units p).map TreeUnit.shown = (n'.units p).map TreeUnit.shown
  lines : ∀ depth first lead comma, n.lines depth first lead comma = n'.lines depth first lead comma

theorem SameShown.unitCount {n n' : Node} (h : n.SameShown n') : n.unitCount = n'.unitCount := by
  have := congrArg List.length (h.units [])
  rwa [List.length_map, List.length_map, length_units, length_units] at this

theorem shown_eq {n n' : Node} (h : n.value = n'.value) (role : Role) (p : Path) (span span' : Span) :
    TreeUnit.shown ⟨role, p, span, n⟩ = TreeUnit.shown ⟨role, p, span', n'⟩ := by
  simp only [TreeUnit.shown, TreeUnit.select, h, ← kind_value]

/-- Two members show the same: a key of one name, and the same behind it. -/
def SameMember (m m' : Key × Node) : Prop := m.1.name = m'.1.name ∧ m.2.SameShown m'.2

section
variable {ns ns' : List Node} {ms ms' : List (Key × Node)}

theorem isEmpty_eq {α β : Type} {r : α → β → Prop} {xs : List α} {ys : List β}
    (h : List.Forall₂ r xs ys) : xs.isEmpty = ys.isEmpty := by
  cases h <;> rfl

theorem shown_itemUnits (h : List.Forall₂ SameShown ns ns') (p : Path) (index : Nat) :
    (itemUnits p index ns).map TreeUnit.shown = (itemUnits p index ns').map TreeUnit.shown := by
  induction h generalizing index with
  | nil => rfl
  | cons hn _ ih => rw [itemUnits, itemUnits, List.map_append, List.map_append, hn.units, ih]

theorem itemUnitCount_eq (h : List.Forall₂ SameShown ns ns') :
    itemUnitCount ns = itemUnitCount ns' := by
  have := congrArg List.length (shown_itemUnits h [] 0)
  rwa [List.length_map, List.length_map, length_itemUnits, length_itemUnits] at this

theorem itemLines_eq (h : List.Forall₂ SameShown ns ns') (depth first : Nat) :
    itemLines depth first ns = itemLines depth first ns' := by
  induction h generalizing first with
  | nil => rfl
  | cons hn hns ih => rw [itemLines, itemLines, hn.lines, hn.unitCount, ih, isEmpty_eq hns]

theorem shown_memberUnits (h : List.Forall₂ SameMember ms ms') (p : Path) :
    (memberUnits p ms).map TreeUnit.shown = (memberUnits p ms').map TreeUnit.shown := by
  induction h with
  | nil => rfl
  | @cons m m' ms ms' hm _ ih =>
    obtain ⟨hname, hm⟩ := hm
    have hkey := shown_eq hm.value .key (p.child m'.1.name) m.1.span m'.1.span
    rw [memberUnits, memberUnits, List.map_cons, List.map_cons, List.map_append, List.map_append, hname,
      hkey, hm.units, ih]

theorem memberUnitCount_eq (h : List.Forall₂ SameMember ms ms') :
    memberUnitCount ms = memberUnitCount ms' := by
  have := congrArg List.length (shown_memberUnits h [])
  rwa [List.length_map, List.length_map, length_memberUnits, length_memberUnits] at this

theorem memberLines_eq (h : List.Forall₂ SameMember ms ms') (depth first : Nat) :
    memberLines depth first ms = memberLines depth first ms' := by
  induction h generalizing first with
  | nil => rfl
  | cons hm hms ih =>
    rw [memberLines, memberLines, hm.1, hm.2.lines, hm.2.unitCount, ih, isEmpty_eq hms]

theorem forall₂_of_map_eq {α β : Type} {r : α → α → Prop} {g : α → β} {xs ys : List α}
    (hr : ∀ x ∈ xs, ∀ y, g x = g y → r x y) (h : xs.map g = ys.map g) : List.Forall₂ r xs ys := by
  induction xs generalizing ys with
  | nil =>
    rw [List.map_nil, eq_comm, List.map_eq_nil_iff] at h
    subst h
    exact .nil
  | cons x xs ih =>
    cases ys with
    | nil => cases h
    | cons y ys =>
      obtain ⟨hx, hxs⟩ := List.forall_mem_cons.mp hr
      obtain ⟨he, hes⟩ := List.cons.inj h
      exact .cons (hx y he) (ih hxs hes)

end

/-- **Nodes of one value** show the same. -/
theorem sameShown_of_value {n : Node} : ∀ {n'}, n.value = n'.value → n.SameShown n' := by
  induction n using Node.induction with
  | scalar span s =>
    intro n' h
    obtain ⟨span', rfl⟩ := eq_scalar_of_value h.symm
    exact ⟨rfl, fun _ => rfl, fun _ _ _ _ => rfl⟩
  | array span items ih =>
    intro n' h
    obtain ⟨span', items', rfl, he⟩ := eq_array_of_value h.symm
    rw [itemValues_eq_map] at he
    have hitems : List.Forall₂ SameShown items items' :=
      forall₂_of_map_eq (fun n hn n' h => ih n hn h) he.symm
    refine ⟨h, fun p => ?_, fun depth first lead comma => ?_⟩
    · simp only [units, List.map_cons, List.map_append, List.map_nil, shown_itemUnits hitems p 0]
      rw [shown_eq h .opening p _ (openingSpan span'), shown_eq h .closing p _ (closingSpan span')]
    · cases hitems with
      | nil => rfl
      | cons hn hns => rw [lines, lines, itemLines_eq (.cons hn hns), itemUnitCount_eq (.cons hn hns)]
  | object span members ih =>
    intro n' h
    obtain ⟨span', members', rfl, he⟩ := eq_object_of_value h.symm
    rw [memberValues_eq_map] at he
    have hmembers : List.Forall₂ SameMember members members' := by
      refine forall₂_of_map_eq (fun m hm m' h => ?_) he.symm
      obtain ⟨hname, hv⟩ := Prod.mk.inj h
      exact ⟨hname, ih m hm hv⟩
    refine ⟨h, fun p => ?_, fun depth first lead comma => ?_⟩
    · simp only [units, List.map_cons, List.map_append, List.map_nil, shown_memberUnits hmembers p]
      rw [shown_eq h .opening p _ (openingSpan span'), shown_eq h .closing p _ (closingSpan span')]
    · cases hmembers with
      | nil => rfl
      | cons hm hms =>
        rw [lines, lines, memberLines_eq (.cons hm hms), memberUnitCount_eq (.cons hm hms)]

end Node

/-! ### Documents -/

namespace Document

variable {source : String} {d : Document}

/-- **The lines of a document read back.** A document without floating-point numbers, written out line by
line, is a document again. It has the same value, the same lines, and units of the same numbers, roles, paths,
values and kinds. -/
theorem parse_text_tree (h : parse source = .ok d) (hn : d.root.EachScalar Scalar.NoFloat) :
    ∃ d', parse d.root.tree.text = .ok d' ∧ d'.root.value = d.root.value ∧
      d'.root.tree.lines = d.root.tree.lines ∧
        d'.root.tree.units.map TreeUnit.shown = d.root.tree.units.map TreeUnit.shown := by
  have hlegible := Node.legible_value (distinct_of_parse h) (fits_of_parse h) hn.value
  have hending : Blanks "\n".toList := List.forall_mem_singleton.mpr (by decide)
  obtain ⟨d', hd', hv⟩ := parse_pretty ⟨hlegible, depth_of_parse h⟩ hending
  have hsame := Node.sameShown_of_value hv
  rw [Node.text_tree]
  exact ⟨d', hd', hv, hsame.lines 0 0 [] false, hsame.units []⟩

/-- The largest integer, and a letter that is escaped without need. -/
theorem parse_text_largest : ∃ d, parse "[18446744073709551615,\"\\u0041\"]" = .ok d ∧
    ∃ d', parse d.root.tree.text = .ok d' ∧ d'.root.value = d.root.value := by
  let largest : NumberLiteral := ⟨false, "18446744073709551615".toList, none, none⟩
  let letter := "\\u0041".toList
  let f : Form := .array [] [(⟨[], []⟩, .literal (.number largest)), (⟨[], []⟩, .literal (.string letter))]
  have hs : Text.Spells [.unicode 0x41] letter := .unicode (by decide) .nil
  have hdigits : largest.whole.all Char.isDigit = true := by decide
  have hl : GrammaticalNumber largest :=
    ⟨.inr ⟨⟨by decide, List.all_eq_true.mp hdigits⟩, by decide⟩, fun _ h => (by cases h),
      fun _ h => (by cases h)⟩
  have hi : IntegerLiteral largest := ⟨rfl, rfl, by decide, by decide⟩
  have hm : Text.meaning letter = .ok ['A'] := (Text.meaning_of_spells hs).trans rfl
  have hc : Contents letter := ⟨_, hs⟩
  have hg : f.Grammatical := by
    simp [f, Form.Grammatical, Form.Each, Form.EachItem, Blanks, hl, hc]
  have ha : f.Accepted := by
    have hx := number?_eq_integer.mpr ⟨hi, rfl⟩
    simp [f, Form.Accepted, Form.Each, Form.EachItem, hm, hx]
  have hp := parse_chars hg ha (by decide)
  obtain ⟨d', hd, hv, -⟩ := parse_text_tree hp (noFloat_node (by simp [f, Form.Each, Form.EachItem, hi]) 0)
  exact ⟨_, hp, d', hd, hv⟩

end Document

end JsonSelect
