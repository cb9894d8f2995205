import JsonSelect.Proofs.Tree.Paths
import JsonSelect.Proofs.Tree.Spans

/-! # Units and nodes

The units of a document correspond to the nodes of its tree. Where no object repeats a key, the segments of
a path say which accessors it stands for (`accessors_injective`), and the units at the path are those of the
node that the accessors lead to: its own tokens, behind the key that names it (`rolesAt_units`). The head of a
node stands where the node starts, and tokens do not overlap, so nodes at different places differ
(`Document.units_correspond`). -/

namespace JsonSelect

open Reading Written

/-! ### Roles -/

/-- The roles of the tokens that stand for a node and are part of it. -/
def Node.ownRoles : Node → List Role
  | .scalar _ _ => [.literal]
  | .array _ _ => [.opening, .closing]
  | .object _ _ => [.opening, .closing]

/-- The role of the token that names a node: a member of an object has a key. -/
def Accessor.keyRoles (as : List Accessor) : List Role :=
  match as.getLast? with
  | some (.key _) => [.key]
  | _ => []

/-- The roles of the units at a path, in order. -/
def rolesAt (path : Path) (us : List TreeUnit) : List Role :=
  (us.filter (·.path = path)).map (·.role)

section
variable {path : Path} {u : TreeUnit} {us vs : List TreeUnit}

@[simp] theorem rolesAt_nil : rolesAt path [] = [] := rfl

@[simp] theorem rolesAt_append : rolesAt path (us ++ vs) = rolesAt path us ++ rolesAt path vs := by
  simp [rolesAt]

@[simp] theorem rolesAt_cons_self (role : Role) (span : Span) (n : Node) :
    rolesAt path (⟨role, path, span, n⟩ :: us) = role :: rolesAt path us := by
  simp [rolesAt]

theorem rolesAt_cons_of_ne (h : u.path ≠ path) : rolesAt path (u :: us) = rolesAt path us := by
  simp [rolesAt, h]

theorem rolesAt_eq_nil (h : ∀ u ∈ us, u.path ≠ path) : rolesAt path us = [] := by
  simpa [rolesAt] using h

end

namespace Node

/-! ### Paths of units -/

theorem prefix_of_mem_units {n : Node} {p : Path} {u : TreeUnit} (h : u ∈ n.units p) : p <+: u.path := by
  obtain ⟨as, hp, -⟩ := leads_of_mem_units h
  exact ⟨_, hp.symm⟩

theorem child_ne (p : Path) (s : String) : p.child s ≠ p := by
  simp [Path.child]

theorem child_eq_append {p q : Path} {s t : String} : p.child s = p ++ t :: q ↔ s = t ∧ q = [] := by
  simp [Path.child, eq_comm]

/-- No unit behind a segment is at the path in front of it. -/
theorem rolesAt_units_child (n : Node) (p : Path) (s : String) :
    rolesAt p (n.units (p.child s)) = [] := by
  refine rolesAt_eq_nil fun u hu he => ?_
  have := (prefix_of_mem_units hu).length_le
  rw [he, Path.child, List.length_append] at this
  exact absurd this (by simp)

/-- No unit behind a segment is at a path with another segment in its place. -/
theorem rolesAt_units_of_ne {s t : String} (h : s ≠ t) (n : Node) (p q : Path) :
    rolesAt (p ++ t :: q) (n.units (p.child s)) = [] := by
  refine rolesAt_eq_nil fun u hu he => h ?_
  obtain ⟨r, hr⟩ := prefix_of_mem_units hu
  rw [he, Path.child, List.append_assoc] at hr
  exact (List.cons.inj (List.append_cancel_left hr)).1

/-! ### Units at the path of a node -/

theorem rolesAt_itemUnits_self (p : Path) (index : Nat) (ns : List Node) :
    rolesAt p (itemUnits p index ns) = [] := by
  induction ns generalizing index with
  | nil => rfl
  | cons n ns ih => rw [itemUnits, rolesAt_append, rolesAt_units_child, ih, List.append_nil]

theorem rolesAt_memberUnits_self (p : Path) (ms : List (Key × Node)) :
    rolesAt p (memberUnits p ms) = [] := by
  induction ms with
  | nil => rfl
  | cons m ms ih =>
    rw [memberUnits, rolesAt_cons_of_ne (child_ne p _), rolesAt_append, rolesAt_units_child, ih,
      List.append_nil]

/-- The units of a node at its own path. -/
theorem rolesAt_units_self (n : Node) (p : Path) : rolesAt p (n.units p) = n.ownRoles := by
  cases n with
  | scalar span s => simp [units, ownRoles]
  | array span items => simp [units, ownRoles, rolesAt_itemUnits_self]
  | object span members => simp [units, ownRoles, rolesAt_memberUnits_self]

/-! ### Units at the paths of parts -/

theorem rolesAt_itemUnits_of_lt {i index : Nat} (h : i < index) (p q : Path) (ns : List Node) :
    rolesAt (p ++ indexSegment i :: q) (itemUnits p index ns) = [] := by
  induction ns generalizing index with
  | nil => rfl
  | cons n ns ih =>
    have hne : indexSegment index ≠ indexSegment i := fun e => by
      have := indexSegment_injective e
      omega
    rw [itemUnits, rolesAt_append, rolesAt_units_of_ne hne, ih (Nat.lt_succ_of_lt h), List.append_nil]

theorem rolesAt_itemUnits {ns : List Node} {i : Nat} {n : Node} (h : ns[i]? = some n) (p q : Path)
    (index : Nat) : rolesAt (p ++ indexSegment (index + i) :: q) (itemUnits p index ns) =
      rolesAt (p ++ indexSegment (index + i) :: q) (n.units (p.child (indexSegment (index + i)))) := by
  induction ns generalizing i index with
  | nil => cases h
  | cons n' ns ih =>
    rw [itemUnits, rolesAt_append]
    cases i with
    | zero =>
      obtain rfl : n' = n := by simpa using h
      rw [Nat.add_zero, rolesAt_itemUnits_of_lt (Nat.lt_succ_self index), List.append_nil]
    | succ i =>
      have hne : indexSegment index ≠ indexSegment (index + (i + 1)) := fun e => by
        have := indexSegment_injective e
        omega
      have ih := ih (by simpa using h) (index + 1)
      rw [Nat.add_right_comm, Nat.add_assoc] at ih
      rw [rolesAt_units_of_ne hne, ih, List.nil_append]

theorem rolesAt_memberUnits_of_notMem {name : String} {ms : List (Key × Node)}
    (h : name ∉ Members.names ms) (p q : Path) :
    rolesAt (p ++ name :: q) (memberUnits p ms) = [] := by
  induction ms with
  | nil => rfl
  | cons m ms ih =>
    obtain ⟨hne, hms⟩ : name ≠ m.1.name ∧ name ∉ Members.names ms := by simpa using h
    have hpath : p.child m.1.name ≠ p ++ name :: q := fun e => hne (child_eq_append.mp e).1.symm
    rw [memberUnits, rolesAt_cons_of_ne hpath, rolesAt_append, rolesAt_units_of_ne hne.symm, ih hms,
      List.append_nil]

theorem rolesAt_memberUnits {ms : List (Key × Node)} {key : Key} {n : Node}
    (hn : (Members.names ms).Nodup) (h : (key, n) ∈ ms) (p q : Path) :
    rolesAt (p ++ key.name :: q) (memberUnits p ms) = (if q = [] then [.key] else []) ++
      rolesAt (p ++ key.name :: q) (n.units (p.child key.name)) := by
  induction ms with
  | nil => cases h
  | cons m ms ih =>
    obtain ⟨hm, hn⟩ := List.nodup_cons.mp hn
    rw [memberUnits]
    rcases List.mem_cons.mp h with rfl | h
    · by_cases hq : q = []
      · subst hq
        rw [Path.child, rolesAt_cons_self, rolesAt_append, rolesAt_memberUnits_of_notMem hm]
        simp
      · have hpath : p.child key.name ≠ p ++ key.name :: q := fun e => hq (child_eq_append.mp e).2
        rw [rolesAt_cons_of_ne hpath, rolesAt_append, rolesAt_memberUnits_of_notMem hm]
        simp [hq]
    · have hne : m.1.name ≠ key.name := fun e => by
        have hmem : key.name ∈ Members.names ms := List.mem_map_of_mem h
        rw [← e] at hmem
        exact hm hmem
      have hpath : p.child m.1.name ≠ p ++ key.name :: q := fun e => hne (child_eq_append.mp e).1
      rw [rolesAt_cons_of_ne hpath, rolesAt_append, rolesAt_units_of_ne hne, ih hn h, List.nil_append]

/-- Brackets are not at the paths of the parts between them. -/
theorem rolesAt_brackets (p q : Path) (s : String) {l r : Role} {left right : Span} {n : Node}
    (us : List TreeUnit) :
    rolesAt (p ++ s :: q) (⟨l, p, left, n⟩ :: (us ++ [⟨r, p, right, n⟩])) = rolesAt (p ++ s :: q) us := by
  have hne : p ≠ p ++ s :: q := by simp
  rw [rolesAt_cons_of_ne hne, rolesAt_append, rolesAt_cons_of_ne hne, rolesAt_nil, List.append_nil]

theorem keyRoles_index (i : Nat) (as : List Accessor) :
    Accessor.keyRoles (.index i :: as) = Accessor.keyRoles as := by
  cases as with
  | nil => rfl
  | cons a as => rw [Accessor.keyRoles, List.getLast?_cons_cons, Accessor.keyRoles]

theorem keyRoles_key (name : String) (as : List Accessor) : Accessor.keyRoles (.key name :: as) =
    (if as.map Accessor.segment = [] then [.key] else []) ++ Accessor.keyRoles as := by
  cases as with
  | nil => rfl
  | cons a as =>
    rw [Accessor.keyRoles, List.getLast?_cons_cons, if_neg (by simp), List.nil_append, Accessor.keyRoles]

/-- **The units at the path of a part** are its own tokens, behind the key that names it. -/
theorem rolesAt_units {n m : Node} {as : List Accessor} (hd : n.Distinct) (h : n.Leads as m) :
    ∀ p : Path, rolesAt (p ++ as.map Accessor.segment) (n.units p) =
      Accessor.keyRoles as ++ m.ownRoles := by
  induction h with
  | here n =>
    intro p
    rw [List.map_nil, List.append_nil, rolesAt_units_self]
    rfl
  | @item span items i n m as hi hl ih =>
    intro p
    cases hd with
    | array _ hd =>
      have hitem := rolesAt_itemUnits hi p (as.map Accessor.segment) 0
      have ih := ih (hd _ (List.mem_of_getElem? hi)) (p.child (indexSegment i))
      rw [Nat.zero_add] at hitem
      rw [Path.child, List.append_assoc, List.singleton_append] at ih
      rw [units, List.map_cons, rolesAt_brackets, Accessor.segment, hitem, Path.child, ih,
        keyRoles_index]
  | @member span members key n m as hm hl ih =>
    intro p
    cases hd with
    | object _ hn hd =>
      have ih := ih (hd _ hm) (p.child key.name)
      rw [Path.child, List.append_assoc, List.singleton_append] at ih
      rw [units, List.map_cons, rolesAt_brackets, Accessor.segment, rolesAt_memberUnits hn hm,
        Path.child, ih, keyRoles_key, List.append_assoc]

/-! ### Accessors and their segments -/

/-- **Segments say which accessors they stand for**, where no object repeats a key. -/
theorem accessors_injective {n m m' : Node} {as as' : List Accessor} (hd : n.Distinct)
    (h : n.Leads as m) (h' : n.Leads as' m')
    (he : as.map Accessor.segment = as'.map Accessor.segment) : as = as' := by
  induction h generalizing as' with
  | here n =>
    rw [List.map_nil, eq_comm, List.map_eq_nil_iff] at he
    exact he.symm
  | @item span items i n m as hi hl ih =>
    cases hd with
    | array _ hd =>
      cases h' with
      | here => cases he
      | @item _ _ j n' _ as' hj hl' =>
        obtain ⟨hij, htail⟩ := List.cons.inj he
        obtain rfl := indexSegment_injective hij
        obtain rfl := Option.some.inj (hi.symm.trans hj)
        rw [ih (hd _ (List.mem_of_getElem? hi)) hl' htail]
  | @member span members key n m as hm hl ih =>
    cases hd with
    | object _ hn hd =>
      cases h' with
      | here => cases he
      | @member _ _ key' n' _ as' hm' hl' =>
        obtain ⟨hk : key.name = key'.name, htail⟩ := List.cons.inj he
        have hsame := find?_of_nodup hn hm
        rw [hk, find?_of_nodup hn hm'] at hsame
        obtain ⟨rfl, rfl⟩ := Prod.mk.inj (Option.some.inj hsame)
        rw [ih (hd _ hm) hl' htail]

/-! ### Heads of nodes -/

/-- The units of a part are among those of the whole. -/
theorem units_subset_of_leads {n m : Node} {as : List Accessor} (h : n.Leads as m) :
    ∀ p : Path, m.units (p ++ as.map Accessor.segment) ⊆ n.units p := by
  induction h with
  | here n =>
    intro p u hu
    rwa [List.map_nil, List.append_nil] at hu
  | @item span items i n m as hi hl ih =>
    intro p u hu
    have hu := @ih (p.child (indexSegment i)) u (by rwa [Path.child, List.append_assoc])
    have hu : u ∈ itemUnits p 0 items := mem_itemUnits.mpr ⟨i, n, hi, by rwa [Nat.zero_add]⟩
    simp [units, hu]
  | @member span members key n m as hm hl ih =>
    intro p u hu
    have hu := @ih (p.child key.name) u (by rwa [Path.child, List.append_assoc])
    have hu : u ∈ memberUnits p members := mem_memberUnits.mpr ⟨key, n, hm, .inr hu⟩
    simp [units, hu]

/-- The first token of a node, which starts where the node starts. -/
theorem exists_head (n : Node) (p : Path) :
    ∃ u ∈ n.units p, u.path = p ∧ u.span.start = n.span.start := by
  cases n with
  | scalar span s => exact ⟨_, List.mem_cons_self, rfl, rfl⟩
  | array span items => exact ⟨_, List.mem_cons_self, rfl, rfl⟩
  | object span members => exact ⟨_, List.mem_cons_self, rfl, rfl⟩

end Node

namespace Document

variable {source : String} {d : Document}

/-! ### Documents -/

/-- Nodes at different places of a document differ. -/
theorem eq_of_leads (h : parse source = .ok d) {as as' : List Accessor} {n : Node}
    (hl : d.root.Leads as n) (hl' : d.root.Leads as' n) : as = as' := by
  obtain ⟨pad, f, hf, hd⟩ := parse_eq_ok.mp h
  have hroot : d.root = f.node (byteLength pad.before) := by rw [hd]
  have hcovers : ∀ u ∈ d.root.tree.units, u.span.covers u.span.start := fun u hu => by
    rw [hroot] at hu
    obtain ⟨before, token, after, -, ht, hspan⟩ := hf.exists_token hu
    have := byteLength_pos ht
    simp only [hspan, Span.covers, Bool.and_eq_true, decide_eq_true_eq, byteLength_append]
    omega
  -- the heads of the two cover the byte where the node starts
  obtain ⟨u, hu, hp, hs⟩ := n.exists_head (as.map Accessor.segment)
  obtain ⟨u', hu', hp', hs'⟩ := n.exists_head (as'.map Accessor.segment)
  have hu := Node.units_subset_of_leads hl [] hu
  have hu' := Node.units_subset_of_leads hl' [] hu'
  have hspread : d.root.tree.Spread := hroot ▸ spread_tree pad f
  have hat := (Tree.unitAt?_eq_some hspread).mpr ⟨hu, hcovers u hu⟩
  have hat' := (Tree.unitAt?_eq_some hspread).mpr ⟨hu', hcovers u' hu'⟩
  rw [hs, ← hs', hat'] at hat
  obtain rfl := Option.some.inj hat
  exact Node.accessors_injective (distinct_of_parse h) hl hl' (hp.symm.trans hp')

/-- **The units of a document correspond to its nodes.** The path of a unit leads to the unit's node. At the
path of each node are its own tokens and the key that names it, and no others stand for the node. Paths of
different nodes differ, so units are at one path when they stand for one node, and then they select the
same. -/
theorem units_correspond (h : parse source = .ok d) :
    (∀ u ∈ d.root.tree.units, d.root.at? u.path = some u.node ∧
      ∃ as, d.root.Leads as u.node ∧ u.path = as.map Accessor.segment) ∧
    (∀ as n, d.root.Leads as n →
      rolesAt (as.map Accessor.segment) d.root.tree.units = Accessor.keyRoles as ++ n.ownRoles ∧
      ∀ u ∈ d.root.tree.units, u.path = as.map Accessor.segment ↔ u.node = n) ∧
    (∀ as as' n n', d.root.Leads as n → d.root.Leads as' n' →
      (as.map Accessor.segment = as'.map Accessor.segment ↔ as = as') ∧ (as = as' ↔ n = n')) ∧
    ∀ u ∈ d.root.tree.units, ∀ v ∈ d.root.tree.units,
      (u.path = v.path ↔ u.node = v.node) ∧ (u.path = v.path → u.select = v.select) := by
  have hd := distinct_of_parse h
  have hway : ∀ u ∈ d.root.tree.units, ∃ as, d.root.Leads as u.node ∧
      u.path = as.map Accessor.segment := fun u hu => by
    obtain ⟨as, hp, hl⟩ := Node.leads_of_mem_units hu
    exact ⟨as, hl, hp⟩
  have hnode : ∀ {as n}, d.root.Leads as n → ∀ u ∈ d.root.tree.units,
      u.path = as.map Accessor.segment ↔ u.node = n := fun {as n} hl u hu => by
    constructor
    · intro hp
      have hat := Node.at?_path_of_mem_units hd hu
      rw [hp, Node.at?_of_leads hd hl] at hat
      exact (Option.some.inj hat).symm
    · rintro rfl
      obtain ⟨as', hl', hp⟩ := hway u hu
      rw [hp, eq_of_leads h hl hl']
  refine ⟨fun u hu => ⟨Node.at?_path_of_mem_units hd hu, hway u hu⟩, fun as n hl => ⟨?_, hnode hl⟩,
    fun as as' n n' hl hl' => ⟨⟨?_, ?_⟩, ?_, ?_⟩, fun u hu v hv => ?_⟩
  · exact Node.rolesAt_units hd hl []
  · exact Node.accessors_injective hd hl hl'
  · exact congrArg _
  · rintro rfl
    have hat := Node.at?_of_leads hd hl
    rw [Node.at?_of_leads hd hl'] at hat
    exact (Option.some.inj hat).symm
  · rintro rfl
    exact eq_of_leads h hl hl'
  · obtain ⟨as, hl, hp⟩ := hway v hv
    have hsame : u.path = v.path ↔ u.node = v.node := by rw [hp, hnode hl u hu]
    refine ⟨hsame, fun he => ?_⟩
    rw [TreeUnit.select, TreeUnit.select, he, hsame.mp he]

/-- A member that is named like an index, and an item at that index. -/
theorem units_correspond_digit_key : ∃ d, parse "\x7b\"0\":[null]\x7d" = .ok d ∧
    rolesAt ["0"] d.root.tree.units = [.key, .opening, .closing] ∧
      rolesAt ["0", "0"] d.root.tree.units = [.literal] := by
  let f : Form := .object [] [(⟨⟨[], []⟩, ['0'], ⟨[], []⟩⟩, .array [] [(⟨[], []⟩, .literal .null)])]
  have hc : Contents ['0'] := ⟨_, .plain (by decide) (by decide) .nil⟩
  have hm : Text.meaning ['0'] = .ok ['0'] := Text.meaning_escaped ['0']
  have hg : f.Grammatical := by
    simp [f, Form.Grammatical, Form.Each, Form.EachMember, Form.EachItem, Blanks, hc]
  have ha : f.Accepted := by
    simp [f, Form.Accepted, Form.Each, Form.EachMember, Form.EachItem, hm]
  have hname : denoted ['0'] = "0" := by simp [denoted, hm]
  have hp := parse_chars hg ha (by decide)
  obtain ⟨-, hroles, -⟩ := units_correspond hp
  have hmember : (f.node 0).Leads [.key (denoted ['0'])] (.array ⟨5, 11⟩ [.scalar ⟨6, 10⟩ .null]) :=
    .member ⟨0, 12⟩ (List.mem_singleton.mpr rfl) (.here _)
  have hitem : (f.node 0).Leads [.key (denoted ['0']), .index 0] (.scalar ⟨6, 10⟩ .null) :=
    .member ⟨0, 12⟩ (List.mem_singleton.mpr rfl) (.item ⟨5, 11⟩ rfl (.here _))
  have hfirst := (hroles _ _ hmember).1
  have hsecond := (hroles _ _ hitem).1
  rw [hname] at hfirst hsecond
  exact ⟨_, hp, hfirst, hsecond⟩

end Document

end JsonSelect
