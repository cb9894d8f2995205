import JsonSelect.Proofs.Tree.Correspondence
import Mathlib.Data.List.ModifyLast

/-! # The tree of a part

A node is displayed alike wherever it stands. At another path its units change in their paths only
(`Node.units_moved`). On deeper lines, and with higher numbers, its lines are its own ones raised
(`Node.map_raise_lines`), with what leads up to them in front of the first one and a comma behind the last one
(`Node.lines_eq_framed`). `Node.Has` says how a node stands in its container. The units and the lines of such a
part stand together among those of the whole (`Node.Has.blocks`), and so the tree of the part is a block of the
tree of the document (`Document.tree_of_part`). -/

namespace JsonSelect

open Written

/-! ### Blocks of lines -/

/-- The token with the number of its unit raised by `first`. -/
def Token.raise (first : Nat) (t : Token) : Token := ⟨t.text, t.unit.map (· + first)⟩

/-- The line `depth` levels deeper, with the numbers of its units raised by `first`. -/
def Line.raise (depth first : Nat) (l : Line) : Line := ⟨l.depth + depth, l.tokens.map (Token.raise first)⟩

/-- The lines with some tokens in front of the first one and some behind the last one. -/
def framed (lead tail : List Token) (ls : List Line) : List Line :=
  (ls.modifyHead fun l => ⟨l.depth, lead ++ l.tokens⟩).modifyLast fun l => ⟨l.depth, l.tokens ++ tail⟩

theorem framed_singleton (lead tail ts : List Token) (depth : Nat) :
    framed lead tail [⟨depth, ts⟩] = [⟨depth, lead ++ ts ++ tail⟩] :=
  List.modifyLast_concat _ _ []

theorem framed_cons_concat (lead tail ts ts' : List Token) (depth depth' : Nat) (inner : List Line) :
    framed lead tail (⟨depth, ts⟩ :: (inner ++ [⟨depth', ts'⟩])) =
      ⟨depth, lead ++ ts⟩ :: (inner ++ [⟨depth', ts' ++ tail⟩]) := by
  rw [framed, List.modifyHead_cons, ← List.cons_append, List.modifyLast_concat, List.cons_append]

/-- The unit with `q` in the place of the path `p` that its own path begins with. -/
def TreeUnit.moved (p q : Path) (u : TreeUnit) : TreeUnit :=
  ⟨u.role, q ++ u.path.drop p.length, u.span, u.node⟩

namespace Node

variable {p : Path}

/-! ### Units at another path -/

/-- A path in front of all paths of the units is one in front of the path of the node. -/
theorem map_moved_units (q : Path) (n : Node) :
    ∀ p : Path, (n.units p).map (TreeUnit.moved [] q) = n.units (q ++ p) := by
  have hchild : ∀ (p : Path) (s : String), (q ++ p).child s = q ++ p.child s := fun p s =>
    List.append_assoc q p [s]
  induction n using Node.induction with
  | scalar span s => exact fun p => rfl
  | array span items ih =>
    -- the index runs along the items, so this is said of each row of items of the array
    have hitems : ∀ (ns : List Node) (p : Path) (index : Nat), (∀ n ∈ ns, n ∈ items) →
        (itemUnits p index ns).map (TreeUnit.moved [] q) = itemUnits (q ++ p) index ns := by
      intro ns p
      induction ns with
      | nil => exact fun _ _ => rfl
      | cons n ns ihns =>
        intro index h
        obtain ⟨hn, hns⟩ := List.forall_mem_cons.mp h
        rw [itemUnits, List.map_append, ih n hn, ihns _ hns, itemUnits, hchild]
    intro p
    simp [units, hitems items p 0 (fun _ h => h), TreeUnit.moved]
  | object span members ih =>
    have hmembers : ∀ (ms : List (Key × Node)) (p : Path), (∀ m ∈ ms, m ∈ members) →
        (memberUnits p ms).map (TreeUnit.moved [] q) = memberUnits (q ++ p) ms := by
      intro ms p
      induction ms with
      | nil => exact fun _ => rfl
      | cons m ms ihms =>
        intro h
        obtain ⟨hm, hms⟩ := List.forall_mem_cons.mp h
        rw [memberUnits, List.map_cons, List.map_append, ih m hm, ihms hms, memberUnits, hchild]
        rfl
    intro p
    simp [units, hmembers members p (fun _ h => h), TreeUnit.moved]

/-- **At another path** a node has the same units with that path in the place of its own. -/
theorem units_moved (n : Node) (p q : Path) : (n.units p).map (TreeUnit.moved p q) = n.units q := by
  have hp := n.map_moved_units p []
  have hq := n.map_moved_units q []
  rw [List.append_nil] at hp hq
  rw [← hp, ← hq, List.map_map]
  refine List.map_congr_left fun u _ => ?_
  simp [TreeUnit.moved]

/-! ### Lines elsewhere -/

section
variable (k d : Nat)

/-- The lines of a node keep their text when they are raised. -/
def Raises (n : Node) : Prop := ∀ depth first lead comma,
  (n.lines depth first lead comma).map (Line.raise d k) =
    n.lines (depth + d) (first + k) (lead.map (Token.raise k)) comma

theorem map_raise_commaIf (comma : Bool) : (commaIf comma).map (Token.raise k) = commaIf comma := by
  cases comma <;> rfl

theorem map_raise_itemLines {ns : List Node} (h : ∀ n ∈ ns, n.Raises k d) (depth first : Nat) :
    (itemLines depth first ns).map (Line.raise d k) = itemLines (depth + d) (first + k) ns := by
  induction ns generalizing first with
  | nil => rfl
  | cons n ns ih =>
    obtain ⟨hn, hns⟩ := List.forall_mem_cons.mp h
    rw [itemLines, List.map_append, hn, ih hns, itemLines, Nat.add_right_comm first]
    rfl

theorem map_raise_memberLines {ms : List (Key × Node)} (h : ∀ m ∈ ms, m.2.Raises k d) (depth first : Nat) :
    (memberLines depth first ms).map (Line.raise d k) = memberLines (depth + d) (first + k) ms := by
  induction ms generalizing first with
  | nil => rfl
  | cons m ms ih =>
    obtain ⟨hm, hms⟩ := List.forall_mem_cons.mp h
    have hnext : first + 1 + m.2.unitCount + k = first + k + 1 + m.2.unitCount := by omega
    rw [memberLines, List.map_append, hm, ih hms, memberLines, Nat.add_right_comm first, hnext]
    rfl

/-- **On other lines** a node shows the same, deeper and with higher numbers. -/
theorem map_raise_lines (n : Node) : n.Raises k d := by
  induction n using Node.induction with
  | scalar span s =>
    intro depth first lead comma
    simp [lines, Line.raise, Token.raise, map_raise_commaIf]
  | array span items ih =>
    intro depth first lead comma
    cases items with
    | nil => simp [lines, Line.raise, Token.raise, map_raise_commaIf, Nat.add_right_comm first]
    | cons n ns =>
      have hinner := map_raise_itemLines k d ih (depth + 1) (first + 1)
      rw [Nat.add_right_comm depth, Nat.add_right_comm first] at hinner
      simp [lines, hinner, Line.raise, Token.raise, map_raise_commaIf, Nat.add_right_comm _ _ k]
  | object span members ih =>
    intro depth first lead comma
    cases members with
    | nil => simp [lines, Line.raise, Token.raise, map_raise_commaIf, Nat.add_right_comm first]
    | cons m ms =>
      have hinner := map_raise_memberLines k d ih (depth + 1) (first + 1)
      rw [Nat.add_right_comm depth, Nat.add_right_comm first] at hinner
      simp [lines, hinner, Line.raise, Token.raise, map_raise_commaIf, Nat.add_right_comm _ _ k]

end

/-- What leads up to a node and the comma behind it change its first and its last line only. -/
theorem lines_eq_framed (n : Node) (depth first : Nat) (lead : List Token) (comma : Bool) :
    n.lines depth first lead comma = framed lead (commaIf comma) (n.lines depth first [] false) := by
  have hnone : commaIf false = [] := rfl
  cases n with
  | scalar span s => simp [lines, framed_singleton, hnone]
  | array span items =>
    cases items with
    | nil => simp [lines, framed_singleton, hnone]
    | cons n ns => simp [lines, framed_cons_concat, hnone]
  | object span members =>
    cases members with
    | nil => simp [lines, framed_singleton, hnone]
    | cons m ms => simp [lines, framed_cons_concat, hnone]

end Node

/-! ### Nodes in their containers -/

/-- How a node stands in its container: behind which key, if it is in an object, and whether another entry
follows. -/
structure Place where
  key : Option String
  more : Bool
deriving DecidableEq, Repr

/-- The key and the colon in front of a node, if it stands behind a key; the key has the number `id`. -/
def Place.lead (place : Place) (id : Nat) : List Token :=
  match place.key with
  | none => []
  | some name => [⟨Text.quote name, some id⟩, .plain ": "]

/-- The comma behind a node, if another entry follows. -/
def Place.tail (place : Place) : List Token := Node.commaIf place.more

namespace Node

/-- The part `n` of the node `root` stands at a path, in a place of its container. -/
inductive Has (root : Node) : Path → Node → Place → Prop
  | root : Has root [] root ⟨none, false⟩
  | item {p : Path} {place : Place} {span : Span} {xs ys : List Node} {n : Node}
      (h : Has root p (.array span (xs ++ n :: ys)) place) :
      Has root (p.child (indexSegment xs.length)) n ⟨none, !ys.isEmpty⟩
  | member {p : Path} {place : Place} {span : Span} {xs ys : List (Key × Node)} {key : Key} {n : Node}
      (h : Has root p (.object span (xs ++ (key, n) :: ys)) place) :
      Has root (p.child key.name) n ⟨some key.name, !ys.isEmpty⟩

section
variable {root n : Node} {p : Path} {place : Place}

theorem at?_append (n : Node) (p q : Path) : n.at? (p ++ q) = (n.at? p).bind (·.at? q) := by
  induction p generalizing n with
  | nil => rfl
  | cons s p ih =>
    rw [List.cons_append, at?, at?, Option.bind_assoc]
    exact Option.bind_congr fun m _ => ih m

theorem at?_child (n : Node) (p : Path) (s : String) : n.at? (p.child s) = (n.at? p).bind (·.child? s) := by
  rw [Path.child, at?_append]
  refine Option.bind_congr fun m _ => ?_
  rw [at?]
  cases m.child? s <;> rfl

/-- The path of a part leads to it, where no object repeats a key. -/
theorem Has.at? (hd : root.Distinct) (h : root.Has p n place) : root.at? p = some n ∧ n.Distinct := by
  induction h with
  | root => exact ⟨rfl, hd⟩
  | @item p place span xs ys n h ih =>
    obtain ⟨hat, hd⟩ := ih
    cases hd with
    | array _ hd =>
      rw [at?_child, hat]
      exact ⟨child?_item span (by simp), hd n (by simp)⟩
  | @member p place span xs ys key n h ih =>
    obtain ⟨hat, hd⟩ := ih
    cases hd with
    | object _ hn hd =>
      rw [at?_child, hat]
      exact ⟨child?_member span hn (by simp), hd (key, n) (by simp)⟩

/-- What a segment leads to is an item or the node of a member, in its place. -/
theorem Has.child {m : Node} {s : String} (h : root.Has p m place) (hs : m.child? s = some n) :
    ∃ place', root.Has (p.child s) n place' := by
  cases m with
  | scalar span s => cases hs
  | array span items =>
    obtain ⟨⟨n', i⟩, hfind, rfl⟩ := Option.map_eq_some_iff.mp hs
    have hsegment : indexSegment i = s := by simpa using List.find?_some hfind
    obtain ⟨hi, hn⟩ := List.mem_zipIdx' (List.mem_of_find?_eq_some hfind)
    -- the item that is found has as many in front of it as its index says
    have hsplit : items = items.take i ++ n' :: items.drop (i + 1) := by
      rw [hn, List.getElem_cons_drop, List.take_append_drop]
    have hlength : (items.take i).length = i := List.length_take_of_le (Nat.le_of_lt hi)
    rw [hsplit] at h
    have hitem := h.item
    rw [hlength, hsegment] at hitem
    exact ⟨_, hitem⟩
  | object span members =>
    obtain ⟨⟨key, n'⟩, hfind, rfl⟩ := Option.map_eq_some_iff.mp hs
    have hname : key.name = s := by simpa using List.find?_some hfind
    obtain ⟨xs, ys, rfl⟩ := List.append_of_mem (List.mem_of_find?_eq_some hfind)
    exact ⟨_, hname ▸ h.member⟩

/-- **The parts of a node** are what paths lead to. -/
theorem at?_eq_some_iff (hd : root.Distinct) : root.at? p = some n ↔ ∃ place, root.Has p n place := by
  refine ⟨fun h => ?_, fun ⟨_, h⟩ => (h.at? hd).1⟩
  induction p using List.reverseRecOn generalizing n with
  | nil =>
    obtain rfl := Option.some.inj h
    exact ⟨_, .root⟩
  | append_singleton p s ih =>
    obtain ⟨m, hm, hs⟩ := Option.bind_eq_some_iff.mp ((at?_child root p s).symm.trans h)
    obtain ⟨place, hplace⟩ := ih hm
    exact hplace.child hs

end

/-! ### The block of a part -/

theorem itemUnits_append (p : Path) (index : Nat) (xs ys : List Node) :
    itemUnits p index (xs ++ ys) = itemUnits p index xs ++ itemUnits p (index + xs.length) ys := by
  induction xs generalizing index with
  | nil => rfl
  | cons x xs ih =>
    have hindex : index + 1 + xs.length = index + (x :: xs).length := by
      rw [List.length_cons]
      omega
    rw [List.cons_append, itemUnits, itemUnits, ih, hindex, List.append_assoc]

theorem memberUnits_append (p : Path) (xs ys : List (Key × Node)) :
    memberUnits p (xs ++ ys) = memberUnits p xs ++ memberUnits p ys := by
  induction xs with
  | nil => rfl
  | cons x xs ih => simp [memberUnits, ih]

/-- The lines of an item stand together among those of all items. -/
theorem exists_itemLines (depth first : Nat) (xs ys : List Node) (n : Node) :
    ∃ above below, itemLines depth first (xs ++ n :: ys) =
      above ++ n.lines depth (first + itemUnitCount xs) [] (!ys.isEmpty) ++ below := by
  induction xs generalizing first with
  | nil => exact ⟨[], _, rfl⟩
  | cons x xs ih =>
    obtain ⟨above, below, h⟩ := ih (first + x.unitCount)
    refine ⟨x.lines depth first [] (!(xs ++ n :: ys).isEmpty) ++ above, below, ?_⟩
    rw [List.cons_append, itemLines, h, itemUnitCount, Nat.add_assoc]
    simp only [List.append_assoc]

/-- The lines of a member stand together among those of all members. -/
theorem exists_memberLines (depth first : Nat) (xs ys : List (Key × Node)) (key : Key) (n : Node) :
    ∃ above below, memberLines depth first (xs ++ (key, n) :: ys) =
      above ++ n.lines depth (first + memberUnitCount xs + 1)
        [⟨Text.quote key.name, some (first + memberUnitCount xs)⟩, .plain ": "] (!ys.isEmpty) ++ below := by
  induction xs generalizing first with
  | nil => exact ⟨[], _, rfl⟩
  | cons x xs ih =>
    obtain ⟨above, below, h⟩ := ih (first + 1 + x.2.unitCount)
    have hnext : first + 1 + x.2.unitCount + memberUnitCount xs = first + memberUnitCount (x :: xs) := by
      rw [memberUnitCount]
      omega
    refine ⟨x.2.lines depth (first + 1) [⟨Text.quote x.1.name, some first⟩, .plain ": "]
      (!(xs ++ (key, n) :: ys).isEmpty) ++ above, below, ?_⟩
    rw [List.cons_append, memberLines, h, hnext]
    simp only [List.append_assoc]

/-- The lines of an array with items. -/
theorem lines_array {items : List Node} (h : items ≠ []) (span : Span) (depth first : Nat) (lead : List Token)
    (comma : Bool) : ∃ opening closing, (Node.array span items).lines depth first lead comma =
      opening :: (itemLines (depth + 1) (first + 1) items ++ [closing]) := by
  obtain ⟨n, ns, rfl⟩ := List.exists_cons_of_ne_nil h
  exact ⟨_, _, rfl⟩

/-- The lines of an object with members. -/
theorem lines_object {members : List (Key × Node)} (h : members ≠ []) (span : Span) (depth first : Nat)
    (lead : List Token) (comma : Bool) :
    ∃ opening closing, (Node.object span members).lines depth first lead comma =
      opening :: (memberLines (depth + 1) (first + 1) members ++ [closing]) := by
  obtain ⟨m, ms, rfl⟩ := List.exists_cons_of_ne_nil h
  exact ⟨_, _, rfl⟩

/-- The units and the lines of a node stand together in a tree: the lines are as deep as the path is long, and
they count the units on. -/
def Blocks (t : Tree) (p : Path) (n : Node) (place : Place) : Prop :=
  ∃ before after above below, t.units = before ++ n.units p ++ after ∧
    t.lines = above ++ n.lines p.length before.length (place.lead (before.length - 1)) place.more ++ below

/-- What stands together in a part stands together in the whole. -/
theorem Blocks.inner {t : Tree} {p : Path} {s : String} {m n : Node} {place place' : Place}
    (h : Blocks t p m place) (front back : List TreeUnit) (hu : m.units p = front ++ n.units (p.child s) ++ back)
    (hl : ∀ depth first lead comma, ∃ above below, m.lines depth first lead comma = above ++
      n.lines (depth + 1) (first + front.length) (place'.lead (first + front.length - 1)) place'.more ++ below) :
    Blocks t (p.child s) n place' := by
  obtain ⟨before, after, above, below, hunits, hlines⟩ := h
  -- the units in front of the part in `m` come behind those in front of `m`, and so do the lines
  obtain ⟨above', below', hinner⟩ := hl p.length before.length (place.lead (before.length - 1)) place.more
  have hlength : (p.child s).length = p.length + 1 := List.length_append
  refine ⟨before ++ front, back ++ after, above ++ above', below' ++ below, ?_, ?_⟩
  · rw [hunits, hu]
    simp only [List.append_assoc]
  · rw [hlines, hinner, hlength, List.length_append]
    simp only [List.append_assoc]

theorem Blocks.item {t : Tree} {p : Path} {span : Span} {xs ys : List Node} {n : Node} {place : Place}
    (h : Blocks t p (.array span (xs ++ n :: ys)) place) :
    Blocks t (p.child (indexSegment xs.length)) n ⟨none, !ys.isEmpty⟩ := by
  let opening : TreeUnit := ⟨.opening, p, openingSpan span, .array span (xs ++ n :: ys)⟩
  let closing : TreeUnit := ⟨.closing, p, closingSpan span, .array span (xs ++ n :: ys)⟩
  refine h.inner (opening :: itemUnits p 0 xs) (itemUnits p (xs.length + 1) ys ++ [closing]) ?_
    fun depth first lead comma => ?_
  · rw [units, itemUnits_append, itemUnits, Nat.zero_add]
    simp only [opening, closing, List.cons_append, List.append_assoc]
  · obtain ⟨above, below, hitem⟩ := exists_itemLines (depth + 1) (first + 1) xs ys n
    have hne : xs ++ n :: ys ≠ [] := List.append_ne_nil_of_right_ne_nil _ (List.cons_ne_nil _ _)
    obtain ⟨top, bottom, hall⟩ := lines_array hne span depth first lead comma
    have hlength : first + (opening :: itemUnits p 0 xs).length = first + 1 + itemUnitCount xs := by
      rw [List.length_cons, length_itemUnits]
      omega
    refine ⟨top :: above, below ++ [bottom], ?_⟩
    rw [hlength, hall, hitem]
    simp only [Place.lead, List.cons_append, List.append_assoc]

theorem Blocks.member {t : Tree} {p : Path} {span : Span} {xs ys : List (Key × Node)} {key : Key} {n : Node}
    {place : Place} (h : Blocks t p (.object span (xs ++ (key, n) :: ys)) place) :
    Blocks t (p.child key.name) n ⟨some key.name, !ys.isEmpty⟩ := by
  let opening : TreeUnit := ⟨.opening, p, openingSpan span, .object span (xs ++ (key, n) :: ys)⟩
  let closing : TreeUnit := ⟨.closing, p, closingSpan span, .object span (xs ++ (key, n) :: ys)⟩
  let name : TreeUnit := ⟨.key, p.child key.name, key.span, n⟩
  refine h.inner (opening :: (memberUnits p xs ++ [name])) (memberUnits p ys ++ [closing]) ?_
    fun depth first lead comma => ?_
  · rw [units, memberUnits_append, memberUnits]
    simp only [opening, closing, name, List.cons_append, List.nil_append, List.append_assoc]
  · obtain ⟨above, below, hmember⟩ := exists_memberLines (depth + 1) (first + 1) xs ys key n
    have hne : xs ++ (key, n) :: ys ≠ [] := List.append_ne_nil_of_right_ne_nil _ (List.cons_ne_nil _ _)
    obtain ⟨top, bottom, hall⟩ := lines_object hne span depth first lead comma
    have hlength : first + (opening :: (memberUnits p xs ++ [name])).length =
        first + 1 + memberUnitCount xs + 1 := by
      rw [List.length_cons, List.length_append, length_memberUnits, List.length_singleton]
      omega
    refine ⟨top :: above, below ++ [bottom], ?_⟩
    rw [hlength, Nat.add_sub_cancel, hall, hmember]
    simp only [Place.lead, List.cons_append, List.append_assoc]

/-- **The block of a part.** The units of a part stand together among those of the whole, and so do its lines. -/
theorem Has.blocks {root n : Node} {p : Path} {place : Place} (h : root.Has p n place) :
    Blocks root.tree p n place := by
  induction h with
  | root => exact ⟨[], [], [], [], by simp [tree, treeAt], by simp [tree, treeAt, Place.lead]⟩
  | item h ih => exact ih.item
  | member h ih => exact ih.member

end Node

/-! ### Documents -/

namespace Document

variable {source : String} {d : Document}

/-- **Walking is compositional.** The nodes of a document are what paths lead to. The units of the tree of a node
at its path stand together among the units of the document, so that their numbers, which are their places, are
lower by one constant. Its lines stand together among the lines of the document: there they are deeper by the
length of the path, show numbers higher by that constant, and have in addition the key in front of the first one
and the comma behind the last one that the node's place asks for. At any other path the tree of the node has the
same lines and, with that path in the place of the first one, the same units. -/
theorem tree_of_part (h : parse source = .ok d) (p : Path) (n : Node) :
    (d.root.at? p = some n ↔ ∃ place, d.root.Has p n place) ∧
    ∀ place, d.root.Has p n place →
      (∃ before after above below,
        d.root.tree.units = before ++ (n.treeAt p).units ++ after ∧
        d.root.tree.lines = above ++ framed (place.lead (before.length - 1)) place.tail
          ((n.treeAt p).lines.map (Line.raise p.length before.length)) ++ below) ∧
      (∀ u ∈ (n.treeAt p).units, p <+: u.path) ∧
      ∀ q, n.treeAt q = ⟨(n.treeAt p).units.map (TreeUnit.moved p q), (n.treeAt p).lines⟩ := by
  refine ⟨Node.at?_eq_some_iff (distinct_of_parse h), fun place hplace => ⟨?_, fun u hu => ?_, fun q => ?_⟩⟩
  · obtain ⟨before, after, above, below, hunits, hlines⟩ := hplace.blocks
    have hraised := n.map_raise_lines before.length p.length 0 0 [] false
    rw [Nat.zero_add, Nat.zero_add, List.map_nil] at hraised
    refine ⟨before, after, above, below, hunits, ?_⟩
    rw [hlines, Node.lines_eq_framed, Node.treeAt, hraised]
    rfl
  · exact Node.prefix_of_mem_units hu
  · rw [Node.treeAt, Node.treeAt, n.units_moved]

/-- The node of a member with a member behind it. -/
theorem tree_of_part_member : ∃ d n, parse "\x7b\"a\":[true],\"b\":null\x7d" = .ok d ∧
    d.root.at? ["a"] = some n ∧
    ∃ before after above below, d.root.tree.units = before ++ n.units ["a"] ++ after ∧
      d.root.tree.lines = above ++
        [⟨1, [⟨"\"a\"", some (before.length - 1)⟩, .plain ": ", ⟨"[", some (0 + before.length)⟩]⟩,
          ⟨2, [⟨"true", some (1 + before.length)⟩]⟩,
          ⟨1, [⟨"]", some (2 + before.length)⟩, .plain ","]⟩] ++ below := by
  let item : Form := .array [] [(⟨[], []⟩, .literal (.boolean true))]
  let f : Form := .object []
    [(⟨⟨[], []⟩, ['a'], ⟨[], []⟩⟩, item), (⟨⟨[], []⟩, ['b'], ⟨[], []⟩⟩, .literal .null)]
  have hka : Contents ['a'] := ⟨_, .plain (by decide) (by decide) .nil⟩
  have hkb : Contents ['b'] := ⟨_, .plain (by decide) (by decide) .nil⟩
  have hma : Text.meaning ['a'] = .ok ['a'] := Text.meaning_escaped ['a']
  have hmb : Text.meaning ['b'] = .ok ['b'] := Text.meaning_escaped ['b']
  have hg : f.Grammatical := by
    simp [f, item, Form.Grammatical, Form.Each, Form.EachMember, Form.EachItem, Blanks, hka, hkb]
  have ha : f.Accepted := by
    simp [f, item, Form.Accepted, Form.Each, Form.EachMember, Form.EachItem, hma, hmb]
  have hp := parse_chars hg ha (by decide)
  have hnames : denoted ['a'] = "a" ∧ denoted ['b'] = "b" := by simp [denoted, hma, hmb]
  have hcollapse : ∀ (k k' : Span) (n n' : Node),
      Members.collapse [(⟨denoted ['a'], k⟩, n), (⟨denoted ['b'], k'⟩, n')] =
        [(⟨"a", k⟩, n), (⟨"b", k'⟩, n')] := by
    intro k k' n n'
    simp [hnames, Members.collapse, Members.put]
  have hroot : f.node 0 = .object ⟨0, 21⟩
      ([] ++ (⟨"a", ⟨1, 4⟩⟩, item.node 5) :: [(⟨"b", ⟨12, 15⟩⟩, .scalar ⟨16, 20⟩ .null)]) :=
    congrArg (Node.object ⟨0, 21⟩) (hcollapse _ _ _ _)
  have hhas : (f.node 0).Has ["a"] (item.node 5) ⟨some "a", true⟩ := by
    rw [hroot]
    exact .member .root
  obtain ⟨hat, hblock⟩ := tree_of_part hp ["a"] (item.node 5)
  obtain ⟨⟨before, after, above, below, hunits, hlines⟩, -⟩ := hblock _ hhas
  exact ⟨_, _, hp, hat.mpr ⟨_, hhas⟩, before, after, above, below, hunits, hlines⟩

end Document

end JsonSelect
