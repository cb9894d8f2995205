import JsonSelect.Proofs.Access.Expression
import JsonSelect.Proofs.Document

/-! # Where access expressions lead

An expression is followed in the value of a document one accessor at a time: an index leads into an array, a
key into an object, and nothing else leads anywhere. In the expression for a unit a key made only of digits
is read as an index, and no index leads into an object. So the expression leads to the value of the unit's
node exactly when no object is entered through such a key (`follow?_asRead`,
`expression_leads_to_selection`). -/

namespace JsonSelect

open Reading Written

/-! ### Following accessors -/

namespace Value

/-- The part of a value that an accessor leads to. -/
def access? : Value → Accessor → Option Value
  | .array vs, .index i => vs[i]?
  | .object ms, .key name => (ms.find? fun m => m.1 = name).map (·.2)
  | _, _ => none

/-- The part of a value that accessors in order lead to. -/
def follow? (v : Value) : List Accessor → Option Value
  | [] => some v
  | a :: as => (v.access? a).bind (·.follow? as)

end Value

namespace Node

variable {n : Node}

theorem access?_item {items : List Node} {i : Nat} (span : Span) (h : items[i]? = some n) :
    (Node.array span items).value.access? (.index i) = some n.value := by
  rw [value, itemValues_eq_map, Value.access?, List.getElem?_map, h]
  rfl

theorem access?_member {members : List (Key × Node)} {key : Key} (span : Span)
    (hn : (Members.names members).Nodup) (h : (key, n) ∈ members) :
    (Node.object span members).value.access? (.key key.name) = some n.value := by
  have hf := find?_of_nodup hn h
  rw [value, memberValues_eq_map, Value.access?, List.find?_map]
  simp only [Function.comp_def, hf, Option.map_some]

end Node

/-! ### Accessors as they are read -/

/-- No key made only of digits. -/
def Accessor.Plain (a : Accessor) : Prop := ∀ name, a = .key name → ¬ Digits name.toList

theorem Accessor.plain_index (i : Nat) : (Accessor.index i).Plain := by
  intro name h
  cases h

theorem Accessor.plain_key {name : String} :
    (Accessor.key name).Plain ↔ ¬ Digits name.toList := by
  simp [Plain]

theorem asRead_index (i : Nat) : asRead (indexSegment i) = .index i := by
  have hd : Digits (indexSegment i).toList := by
    rw [toList_indexSegment]
    exact digits_toDigits i
  unfold asRead
  rw [shape_eq_index.mpr hd, toList_indexSegment]
  simp only [digitsValue_toDigits]

theorem asRead_key {name : String} (h : ¬ Digits name.toList) : asRead name = .key name := by
  have hs : shape name = .key := by
    cases hs : shape name with
    | index => exact absurd (shape_eq_index.mp hs) h
    | key => rfl
  unfold asRead
  rw [hs]

theorem asRead_digits {name : String} (h : Digits name.toList) :
    asRead name = .index (digitsValue name.toList) := by
  unfold asRead
  rw [shape_eq_index.mpr h]

namespace Node

variable {n m : Node} {as : List Accessor}

/-- **Accessors as they are read** lead to the node unless an object is entered through a key of digits. -/
theorem follow?_asRead (hd : n.Distinct) (h : n.Leads as m) :
    (∃ v, n.value.follow? ((as.map Accessor.segment).map asRead) = some v ∧ v = m.value) ↔
      ∀ a ∈ as, a.Plain := by
  induction h with
  | here => simp [Value.follow?]
  | @item span items i n m as hi _ ih =>
    cases hd with
    | array _ hd =>
      rw [List.map_cons, List.map_cons, Accessor.segment, asRead_index, Value.follow?,
        access?_item span hi, List.forall_mem_cons]
      simp only [Option.bind_some, ih (hd _ (List.mem_of_getElem? hi)), Accessor.plain_index, true_and]
  | @member span members key n m as hm _ ih =>
    cases hd with
    | object _ hn hd =>
      rw [List.map_cons, List.map_cons, Accessor.segment, List.forall_mem_cons, Accessor.plain_key,
        Value.follow?]
      by_cases hk : Digits key.name.toList
      · -- an index leads nowhere in an object
        have hnone : (Node.object span members).value.access? (asRead key.name) = none := by
          rw [asRead_digits hk]
          rfl
        simp [hnone, hk]
      · rw [asRead_key hk, access?_member span hn hm]
        simp only [Option.bind_some, ih (hd _ hm), hk, not_false_eq_true, true_and]

/-- No object on the way along a path is entered through a key of digits. -/
def EntersPlainly (n : Node) (p : Path) : Prop :=
  ∀ q s r, p = q ++ s :: r → ∀ span members, n.at? q = some (.object span members) → ¬ Digits s.toList

theorem entersPlainly_nil : n.EntersPlainly [] := by
  intro q s r h
  cases q <;> cases h

/-- The first segment matters where an object is entered through it, the others behind it. -/
theorem entersPlainly_cons {s : String} {p : Path} (h : n.child? s = some m) :
    n.EntersPlainly (s :: p) ↔
      (∀ span members, n = .object span members → ¬ Digits s.toList) ∧ m.EntersPlainly p := by
  have hat : ∀ q, n.at? (s :: q) = m.at? q := fun q => by
    rw [at?, h]
    rfl
  constructor
  · intro hp
    refine ⟨fun span members hn => ?_, fun q t r he span members ho => ?_⟩
    · exact hp [] s p rfl span members (by rw [hn]; rfl)
    · exact hp (s :: q) t r (by rw [he]; rfl) span members ((hat q).trans ho)
  · rintro ⟨hs, hp⟩ q t r he span members ho
    cases q with
    | nil =>
      obtain ⟨rfl, -⟩ := List.cons.inj he
      exact hs span members (Option.some.inj ho)
    | cons _ q =>
      obtain ⟨rfl, hrest⟩ := List.cons.inj he
      exact hp q t r hrest span members ((hat q).symm.trans ho)

/-- Where the accessors are plain, no object on the path is entered through a key of digits. -/
theorem plain_iff (hd : n.Distinct) (h : n.Leads as m) :
    (∀ a ∈ as, a.Plain) ↔ n.EntersPlainly (as.map Accessor.segment) := by
  induction h with
  | here => simp [entersPlainly_nil]
  | @item span items i n m as hi _ ih =>
    cases hd with
    | array _ hd =>
      rw [List.forall_mem_cons, ih (hd _ (List.mem_of_getElem? hi)), List.map_cons,
        Accessor.segment, entersPlainly_cons (child?_item span hi)]
      simp [Accessor.plain_index]
  | @member span members key n m as hm _ ih =>
    cases hd with
    | object _ hn hd =>
      rw [List.forall_mem_cons, ih (hd _ hm), List.map_cons, Accessor.segment,
        entersPlainly_cons (child?_member span hn hm)]
      simp [Accessor.plain_key]

end Node

/-- **Expressions lead to selections.** The expression for a unit is read back as its receiver and
accessors, and these lead from the value of the root to what selecting the unit gives if and only if no
object on the path of the unit is entered through a key made only of digits. -/
theorem expression_leads_to_selection {source receiver : String} {d : Document} {u : TreeUnit}
    (l : Language) (h : Document.parse source = .ok d) (hu : u ∈ d.root.tree.units)
    (hr : isIdentifier receiver = true) :
    ∃ as, readBack? (l.expression receiver u.path) = some (receiver, as) ∧
      ((∃ v, d.root.value.follow? as = some v ∧ v = u.select.value ∧ v.kind = u.select.kind) ↔
        ∀ q s r, u.path = q ++ s :: r → ∀ span members,
          d.root.at? q = some (.object span members) → ¬ Digits s.toList) := by
  have hd := Document.distinct_of_parse h
  obtain ⟨as, hp, hl⟩ := Node.leads_of_mem_units hu
  rw [List.nil_append] at hp
  refine ⟨u.path.map asRead, readBack_expression l hr u.path, ?_⟩
  have hplain := (Node.follow?_asRead hd hl).trans (Node.plain_iff hd hl)
  unfold Node.EntersPlainly at hplain
  rw [hp, ← hplain]
  constructor
  · rintro ⟨v, hv, he, -⟩
    exact ⟨v, hv, he⟩
  · rintro ⟨v, hv, rfl⟩
    exact ⟨_, hv, rfl, Node.kind_value u.node⟩

theorem expression_leads_to_item : ∃ d u, Document.parse "\x7b\"k\":[true]\x7d" = .ok d ∧
    u ∈ d.root.tree.units ∧ isIdentifier "data" = true ∧
      ∃ as, readBack? (Language.java.expression "data" u.path) = some ("data", as) ∧
        ((∃ v, d.root.value.follow? as = some v ∧ v = u.select.value ∧ v.kind = u.select.kind) ↔
          ∀ q s r, u.path = q ++ s :: r → ∀ span members,
            d.root.at? q = some (.object span members) → ¬ Digits s.toList) := by
  let item : Form := .array [] [(⟨[], []⟩, .literal (.boolean true))]
  let f : Form := .object [] [(⟨⟨[], []⟩, ['k'], ⟨[], []⟩⟩, item)]
  have hc : Contents ['k'] := ⟨_, .plain (by decide) (by decide) .nil⟩
  have hg : f.Grammatical := by
    simp [f, item, Form.Grammatical, Form.Each, Form.EachMember, Form.EachItem, Blanks, hc]
  have ha : f.Accepted := by
    have hm : Text.meaning ['k'] = .ok ['k'] := Text.meaning_escaped ['k']
    simp [f, item, Form.Accepted, Form.Each, Form.EachMember, Form.EachItem, hm]
  have hp := Document.parse_eq_ok.mpr ⟨_, f, Document.derivation_chars hg ha (by decide), rfl⟩
  have hu : (⟨.key, [denoted ['k']], ⟨1, 4⟩, item.node 5⟩ : TreeUnit) ∈ (f.node 0).tree.units :=
    List.mem_of_getElem? (i := 1) rfl
  exact ⟨_, _, hp, hu, by decide, expression_leads_to_selection .java hp hu (by decide)⟩

end JsonSelect
