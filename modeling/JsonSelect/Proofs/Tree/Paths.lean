import JsonSelect.Proofs.Written.Integers
import JsonSelect.Proofs.Written.Nodes
import JsonSelect.Tree

/-! # Paths of units

A path is a row of texts, and does not say which of its segments are indices and which are keys. An
`Accessor` says it, and `Node.Leads` are the rows of accessors from a node to its parts. The path of a unit
consists of the segments of accessors that lead to the unit's node (`leads_of_mem_units`). Where no object
repeats a key, the path leads back to that node (`at?_of_leads`). -/

namespace JsonSelect

/-! ### Accessors -/

/-- One step into a container: into an array at an index, or into an object at a key. -/
inductive Accessor where
  | index (i : Nat)
  | key (name : String)
deriving DecidableEq, Repr

/-- The segment of a path that an accessor leaves. -/
def Accessor.segment : Accessor → String
  | .index i => indexSegment i
  | .key name => name

theorem toList_indexSegment (i : Nat) : (indexSegment i).toList = Nat.toDigits 10 i := by
  rw [indexSegment, String.toList_ofList, decimalChars]

theorem indexSegment_injective {i j : Nat} (h : indexSegment i = indexSegment j) : i = j := by
  have h := congrArg String.toList h
  rw [toList_indexSegment, toList_indexSegment] at h
  rw [← digitsValue_toDigits i, h, digitsValue_toDigits]

namespace Node

/-- **Induction** on the parts of a node. -/
@[elab_as_elim]
theorem induction {P : Node → Prop} (scalar : ∀ span s, P (.scalar span s))
    (array : ∀ span items, (∀ n ∈ items, P n) → P (.array span items))
    (object : ∀ span members, (∀ m ∈ members, P m.2) → P (.object span members)) (n : Node) :
    P n := by
  cases n with
  | scalar span s => exact scalar span s
  | array span items =>
    refine array span items fun n hn => ?_
    exact induction scalar array object n
  | object span members =>
    refine object span members fun m hm => ?_
    have := Written.sizeOf_snd_lt hm
    exact induction scalar array object m.2
termination_by sizeOf n

/-- The accessors lead from a node to a part of it. -/
inductive Leads : Node → List Accessor → Node → Prop
  | here (n : Node) : Leads n [] n
  | item (span : Span) {items : List Node} {i : Nat} {n m : Node} {as : List Accessor}
      (hi : items[i]? = some n) (h : Leads n as m) : Leads (.array span items) (.index i :: as) m
  | member (span : Span) {members : List (Key × Node)} {key : Key} {n m : Node} {as : List Accessor}
      (hm : (key, n) ∈ members) (h : Leads n as m) :
      Leads (.object span members) (.key key.name :: as) m

/-! ### Units of the parts -/

theorem mem_itemUnits {p : Path} {index : Nat} {ns : List Node} {u : TreeUnit} :
    u ∈ itemUnits p index ns ↔
      ∃ (i : Nat) (n : Node), ns[i]? = some n ∧ u ∈ n.units (p.child (indexSegment (index + i))) := by
  induction ns generalizing index with
  | nil => simp [itemUnits]
  | cons n ns ih =>
    rw [itemUnits, List.mem_append, ih]
    constructor
    · rintro (h | ⟨i, m, hi, h⟩)
      · exact ⟨0, n, rfl, h⟩
      · exact ⟨i + 1, m, hi, by rwa [Nat.add_right_comm] at h⟩
    · rintro ⟨i, m, hi, h⟩
      cases i with
      | zero =>
        obtain rfl : n = m := by simpa using hi
        exact .inl h
      | succ i => exact .inr ⟨i, m, hi, by rwa [Nat.add_right_comm]⟩

theorem mem_memberUnits {p : Path} {ms : List (Key × Node)} {u : TreeUnit} :
    u ∈ memberUnits p ms ↔ ∃ (key : Key) (n : Node), (key, n) ∈ ms ∧
      (u = ⟨.key, p.child key.name, key.span, n⟩ ∨ u ∈ n.units (p.child key.name)) := by
  induction ms with
  | nil => simp [memberUnits]
  | cons m ms ih =>
    obtain ⟨key, n⟩ := m
    simp only [memberUnits, List.mem_cons, List.mem_append, ih]
    constructor
    · rintro (h | h | ⟨key', n', hm, h⟩)
      · exact ⟨key, n, .inl rfl, .inl h⟩
      · exact ⟨key, n, .inl rfl, .inr h⟩
      · exact ⟨key', n', .inr hm, h⟩
    · rintro ⟨key', n', he | hm, h⟩
      · cases he
        rcases h with h | h
        · exact .inl h
        · exact .inr (.inl h)
      · exact .inr (.inr ⟨key', n', hm, h⟩)

/-! ### The way to a unit -/

/-- **The path of a unit** leads to the node that the unit stands for. -/
theorem leads_of_mem_units {n : Node} {u : TreeUnit} : ∀ {p : Path}, u ∈ n.units p →
    ∃ as, u.path = p ++ as.map Accessor.segment ∧ n.Leads as u.node := by
  induction n using Node.induction with
  | scalar span s =>
    intro p h
    obtain rfl := List.mem_singleton.mp h
    exact ⟨[], by simp, .here _⟩
  | array span items ih =>
    intro p h
    simp only [units, List.mem_cons, List.mem_append, List.not_mem_nil, or_false] at h
    rcases h with rfl | h | rfl
    · exact ⟨[], by simp, .here _⟩
    · obtain ⟨i, n, hi, hu⟩ := mem_itemUnits.mp h
      obtain ⟨as, hp, hl⟩ := ih n (List.mem_of_getElem? hi) hu
      refine ⟨.index i :: as, ?_, .item span hi hl⟩
      rw [hp, Nat.zero_add, Path.child, List.append_assoc]
      rfl
    · exact ⟨[], by simp, .here _⟩
  | object span members ih =>
    intro p h
    simp only [units, List.mem_cons, List.mem_append, List.not_mem_nil, or_false] at h
    rcases h with rfl | h | rfl
    · exact ⟨[], by simp, .here _⟩
    · obtain ⟨key, n, hm, rfl | hu⟩ := mem_memberUnits.mp h
      · exact ⟨[.key key.name], rfl, .member span hm (.here n)⟩
      · obtain ⟨as, hp, hl⟩ := ih (key, n) hm hu
        refine ⟨.key key.name :: as, ?_, .member span hm hl⟩
        rw [hp, Path.child, List.append_assoc]
        rfl
    · exact ⟨[], by simp, .here _⟩

/-! ### The way back -/

theorem find?_zipIdx {items : List Node} {i : Nat} {n : Node} (start : Nat)
    (h : items[i]? = some n) :
    (items.zipIdx start).find? (fun item => indexSegment item.2 = indexSegment (start + i)) =
      some (n, start + i) := by
  induction items generalizing i start with
  | nil => cases h
  | cons n' items ih =>
    rw [List.zipIdx_cons, List.find?_cons]
    cases i with
    | zero =>
      obtain rfl : n' = n := by simpa using h
      simp
    | succ i =>
      have hne : indexSegment start ≠ indexSegment (start + (i + 1)) := fun e => by
        have := indexSegment_injective e
        omega
      have ih := ih (start + 1) (i := i) (by simpa using h)
      rw [Nat.add_assoc, Nat.add_comm 1] at ih
      simpa [hne] using ih

theorem find?_of_nodup {members : List (Key × Node)} {key : Key} {n : Node}
    (hn : (Members.names members).Nodup) (h : (key, n) ∈ members) :
    members.find? (fun m => m.1.name = key.name) = some (key, n) := by
  induction members with
  | nil => cases h
  | cons m members ih =>
    obtain ⟨hm, hn⟩ := List.nodup_cons.mp hn
    rcases List.mem_cons.mp h with rfl | h
    · simp
    · have hne : m.1.name ≠ key.name := fun e => by
        have hmem : key.name ∈ Members.names members := List.mem_map_of_mem h
        rw [← e] at hmem
        exact hm hmem
      rw [List.find?_cons, ih hn h]
      simp [hne]

theorem child?_item {items : List Node} {i : Nat} {n : Node} (span : Span)
    (h : items[i]? = some n) : (Node.array span items).child? (indexSegment i) = some n := by
  have hf := find?_zipIdx 0 h
  rw [Nat.zero_add] at hf
  rw [child?, hf]
  rfl

theorem child?_member {members : List (Key × Node)} {key : Key} {n : Node} (span : Span)
    (hn : (Members.names members).Nodup) (h : (key, n) ∈ members) :
    (Node.object span members).child? key.name = some n := by
  rw [child?, find?_of_nodup hn h]
  rfl

/-- **Segments lead back** where no object repeats a key. -/
theorem at?_of_leads {n m : Node} {as : List Accessor} (hd : n.Distinct) (h : n.Leads as m) :
    n.at? (as.map Accessor.segment) = some m := by
  induction h with
  | here => rfl
  | item span hi _ ih =>
    cases hd with
    | array _ hd =>
      rw [List.map_cons, at?, Accessor.segment, child?_item span hi]
      exact ih (hd _ (List.mem_of_getElem? hi))
  | member span hm _ ih =>
    cases hd with
    | object _ hn hd =>
      rw [List.map_cons, at?, Accessor.segment, child?_member span hn hm]
      exact ih (hd _ hm)

/-- Following the path of a unit of a whole node leads to the unit's node. -/
theorem at?_path_of_mem_units {n : Node} {u : TreeUnit} (hd : n.Distinct) (h : u ∈ n.units []) :
    n.at? u.path = some u.node := by
  obtain ⟨as, hp, hl⟩ := leads_of_mem_units h
  rw [hp, List.nil_append]
  exact at?_of_leads hd hl

end Node

end JsonSelect
