import JsonSelect.Proofs.Tree.Paths
import JsonSelect.Proofs.Values

/-! # Scalars of a node

What holds of all scalars in a node (`Node.EachScalar`) holds of those in its value. The scalars of a form's
node are what its literals denote (`eachScalar_node`). No object in the node of a form repeats a key, and
integers in a document fit 64 bits, so the value of a document is legible as soon as there is no
floating-point number in it (`Node.legible_value`). -/

namespace JsonSelect

open Reading Written

/-- Every scalar in a node has a property. -/
def Node.EachScalar (P : Scalar → Prop) (n : Node) : Prop :=
  ∀ as span s, n.Leads as (.scalar span s) → P s

namespace Node.EachScalar

variable {P : Scalar → Prop} {span : Span}

theorem item {items : List Node} (h : (array span items).EachScalar P) :
    ∀ n ∈ items, n.EachScalar P := by
  intro n hn as span s hl
  obtain ⟨i, hi⟩ := List.mem_iff_getElem?.mp hn
  exact h _ _ _ (.item _ hi hl)

theorem member {members : List (Key × Node)} (h : (object span members).EachScalar P) :
    ∀ m ∈ members, m.2.EachScalar P :=
  fun _ hm _ _ _ hl => h _ _ _ (.member _ hm hl)

end Node.EachScalar

namespace Written.Form

/-- What holds of the scalars of all literals holds in the node of the form. -/
theorem eachScalar_node {P : Scalar → Prop} {number : NumberLiteral → Prop}
    {string between : List Char → Prop}
    (hP : ∀ l : Literal, (literal l).Each number string between → P l.scalar) {f : Form} :
    f.Each number string between → ∀ start, (f.node start).EachScalar P := by
  induction f using Form.induction with
  | literal l =>
    intro h start as span s hl
    cases hl
    exact hP l h
  | array gap items ih =>
    intro h start as span s hl
    have hi := (eachItem_iff items).mp h.2
    rw [node_array] at hl
    cases hl with
    | item _ hn hl =>
      obtain ⟨i, hmem, offset, rfl⟩ := Entries.mem_contents _ (List.mem_of_getElem? hn)
      exact ih i hmem (hi i hmem).2 offset _ _ _ hl
  | object gap members ih =>
    intro h start as span s hl
    have hm := (eachMember_iff members).mp h.2
    rw [node_object] at hl
    cases hl with
    | member _ hn hl =>
      obtain ⟨m, hmem, offset, he⟩ := Entries.mem_contents _ (Members.mem_of_mem_collapse hn)
      obtain ⟨-, rfl⟩ := Prod.mk.inj he
      exact ih m hmem (hm m hmem).2.2.2 _ _ _ _ hl

end Written.Form

/-- The literal of a number. -/
theorem Written.Literal.exists_of_scalar {l : Literal} {x : Number} (h : l.scalar = .number x) :
    ∃ m, l = .number m ∧ m.number?.getD (.integer 0) = x := by
  cases l with
  | null => cases h
  | boolean b => cases h
  | number m => exact ⟨m, rfl, Scalar.number.inj h⟩
  | string raw => cases h

/-! ### Values of nodes -/

namespace Node

theorem EachScalar.value {P : Scalar → Prop} {n : Node} : n.EachScalar P → n.value.EachScalar P := by
  induction n using Node.induction with
  | scalar span s => exact fun h => .scalar (h _ _ _ (.here _))
  | array span items ih =>
    intro h
    rw [Node.value, itemValues_eq_map]
    refine .array fun v hv => ?_
    obtain ⟨n, hn, rfl⟩ := List.mem_map.mp hv
    exact ih n hn (h.item n hn)
  | object span members ih =>
    intro h
    rw [Node.value, memberValues_eq_map]
    refine .object fun v hv => ?_
    obtain ⟨m, hm, rfl⟩ := List.mem_map.mp hv
    exact ih m hm (h.member m hm)

/-- **The value of a node** without repeated keys is legible, if its integers fit 64 bits and there is no
floating-point number in it. -/
theorem legible_value {n : Node} (hd : n.Distinct) :
    n.EachScalar Scalar.Fits → n.value.EachScalar Scalar.NoFloat → n.value.Legible := by
  induction hd with
  | scalar span s =>
    intro hf hn
    cases hn with
    | scalar hn => exact .scalar hn (hf _ _ _ (.here _))
  | array span _ ih =>
    intro hf hn
    rw [value, itemValues_eq_map] at hn ⊢
    cases hn with
    | array hn =>
      refine .array fun v hv => ?_
      obtain ⟨n, hmem, rfl⟩ := List.mem_map.mp hv
      exact ih n hmem (hf.item n hmem) (hn _ hv)
  | @object span members hnames _ ih =>
    intro hf hn
    rw [value, memberValues_eq_map] at hn ⊢
    cases hn with
    | object hn =>
      refine .object (by rwa [List.map_map]) fun v hv => ?_
      obtain ⟨m, hmem, rfl⟩ := List.mem_map.mp hv
      exact ih m hmem (hf.member m hmem) (hn _ hv)

/-! ### Parts of nodes -/

theorem Leads.distinct {n m : Node} {as : List Accessor} (h : n.Leads as m) (hd : n.Distinct) :
    m.Distinct := by
  induction h with
  | here n => exact hd
  | item span hi _ ih =>
    cases hd with
    | array _ hd => exact ih (hd _ (List.mem_of_getElem? hi))
  | member span hm _ ih =>
    cases hd with
    | object _ _ hd => exact ih (hd _ hm)

theorem Leads.eachScalar {P : Scalar → Prop} {n m : Node} {as : List Accessor} (h : n.Leads as m)
    (hP : n.EachScalar P) : m.EachScalar P := by
  induction h with
  | here n => exact hP
  | item span hi _ ih => exact ih (hP.item _ (List.mem_of_getElem? hi))
  | member span hm _ ih => exact ih (hP.member _ hm)

end Node

/-- The value of a form nests no deeper than the form. -/
theorem Written.Form.depth_value (f : Form) : f.value.depth ≤ f.depth := by
  induction f using Form.induction with
  | literal l => exact Nat.zero_le _
  | array gap items ih =>
    have hdeep := depth_array.mp (Nat.le_refl (array gap items).depth)
    rw [value, itemValues_eq]
    refine Value.depth_array.mpr fun v hv => ?_
    obtain ⟨i, hi, rfl⟩ := List.mem_map.mp hv
    exact (ih i hi).trans (hdeep i hi)
  | object gap members ih =>
    have hdeep := depth_object.mp (Nat.le_refl (object gap members).depth)
    rw [value, memberValues_eq]
    refine Value.depth_object.mpr fun v hv => ?_
    obtain ⟨m, hm, rfl⟩ := List.mem_map.mp (mem_of_mem_latest hv)
    exact (ih m hm).trans (hdeep m hm)

/-! ### Documents -/

namespace Document

variable {source : String} {d : Document}

/-- Integers of documents fit 64 bits. -/
theorem fits_of_parse (h : parse source = .ok d) : d.root.EachScalar Scalar.Fits := by
  obtain ⟨pad, f, hf, rfl⟩ := parse_eq_ok.mp h
  refine Form.eachScalar_node (fun l hl i hi => ?_) hf.accepted _
  obtain ⟨m, rfl, hm⟩ := Literal.exists_of_scalar hi
  obtain ⟨x, hx⟩ := hl
  rw [hx, Option.getD_some] at hm
  rw [hm] at hx
  obtain ⟨hinteger, rfl⟩ := number?_eq_integer.mp hx
  exact hinteger.fits

/-- Where all number literals are those of integers there is no floating-point number. -/
theorem noFloat_node {f : Form} (hf : f.Each IntegerLiteral (fun _ => True) fun _ => True) (start : Nat) :
    (f.node start).EachScalar Scalar.NoFloat := by
  refine Form.eachScalar_node (fun l hl x hx => ?_) hf start
  obtain ⟨m, rfl, hm⟩ := Literal.exists_of_scalar hx
  rw [number?_eq_integer.mpr ⟨hl, rfl⟩] at hm
  cases hm

theorem depth_of_parse (h : parse source = .ok d) : d.root.value.depth ≤ maxDepth := by
  obtain ⟨pad, f, hf, rfl⟩ := parse_eq_ok.mp h
  rw [Form.value_node]
  exact f.depth_value.trans hf.depth

end Document

end JsonSelect
