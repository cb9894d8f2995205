import JsonSelect.Proofs.Written.Entries
import Mathlib.Data.List.Induction
import Mathlib.Data.List.Nodup
import Mathlib.Data.List.Perm.Basic

/-! # Nodes of forms

The members of an object are collapsed to one for each key. In the words of `Written` that gives each key
the place of its first member and the content of its last one (`collapse_eq`); as a set, the last member
of each key is left (`collapse_perm`). Collapsing once is enough, and some of the members may be collapsed
before the others (`collapse_keeps_last`). So the node of a form has the form's value (`value_node`), and no
object in it repeats a key (`distinct_node`). -/

namespace JsonSelect

namespace Members

variable {ms : List (Key × Node)}

/-! ### Putting a member -/

theorem find?_put (ms : List (Key × Node)) (m : Key × Node) (name : String) :
    (put ms m).find? (fun m => m.1.name = name) =
      if m.1.name = name then some m else ms.find? fun m => m.1.name = name := by
  induction ms with
  | nil => by_cases h : m.1.name = name <;> simp [put, h]
  | cons m' ms ih =>
    by_cases he : m'.1.name = m.1.name
    · rw [put, if_pos he, List.find?_cons, List.find?_cons, he]
      by_cases h : m.1.name = name <;> simp [h]
    · rw [put, if_neg he, List.find?_cons, List.find?_cons, ih]
      by_cases h' : m'.1.name = name
      · have h : m.1.name ≠ name := fun h => he (h'.trans h.symm)
        simp [h, h']
      · simp [h']

theorem put_of_not_mem {m : Key × Node} (h : m.1.name ∉ names ms) : put ms m = ms ++ [m] := by
  induction ms with
  | nil => rfl
  | cons m' ms ih =>
    simp only [names_cons, List.mem_cons, not_or] at h
    rw [put, if_neg fun e => h.1 e.symm, ih h.2, List.cons_append]

/-- Up to order, putting a member drops the others of its name. -/
theorem put_perm (h : (names ms).Nodup) (m : Key × Node) :
    (put ms m).Perm (ms.filter (fun m' => m'.1.name ≠ m.1.name) ++ [m]) := by
  induction ms with
  | nil => exact .refl _
  | cons m' ms ih =>
    obtain ⟨hm', hms⟩ := List.nodup_cons.mp h
    by_cases he : m'.1.name = m.1.name
    · have hall : ms.filter (fun m' => m'.1.name ≠ m.1.name) = ms := by
        refine List.filter_eq_self.mpr fun m'' hm'' => ?_
        have : m''.1.name ≠ m.1.name := fun e => by
          have hmem : m''.1.name ∈ names ms := List.mem_map_of_mem hm''
          rw [e, ← he] at hmem
          exact hm' hmem
        simpa using this
      rw [put, if_pos he, List.filter_cons_of_neg (by simpa using he), hall]
      exact (List.perm_append_singleton m ms).symm
    · rw [put, if_neg he, List.filter_cons_of_pos (by simpa using he), List.cons_append]
      exact (ih hms).cons m'

/-! ### Members that remain -/

theorem collapse_append (ms : List (Key × Node)) (m : Key × Node) :
    collapse (ms ++ [m]) = put (collapse ms) m := by
  simp [collapse]

theorem names_collapse (ms : List (Key × Node)) : names (collapse ms) = (names ms).eraseDups := by
  induction ms using List.reverseRecOn with
  | nil => rfl
  | append_singleton ms m ih =>
    have hn : names (ms ++ [m]) = names ms ++ [m.1.name] := by simp [names]
    rw [collapse_append, names_put, ih, hn, List.eraseDups_append]
    by_cases h : m.1.name ∈ names ms <;> simp [List.removeAll, List.eraseDups_cons, h]

theorem nodup_names_collapse (ms : List (Key × Node)) : (names (collapse ms)).Nodup := by
  induction ms using List.reverseRecOn with
  | nil => exact .nil
  | append_singleton ms m ih =>
    rw [collapse_append, names_put]
    by_cases h : m.1.name ∈ names (collapse ms)
    · rwa [if_pos h]
    · rw [if_neg h]
      exact List.nodup_append.mpr ⟨ih, by simp, fun x hx y hy e => by
        rw [e, List.mem_singleton.mp hy] at hx
        exact h hx⟩

theorem find?_collapse (ms : List (Key × Node)) (name : String) :
    (collapse ms).find? (fun m => m.1.name = name) = ms.reverse.find? fun m => m.1.name = name := by
  induction ms using List.reverseRecOn with
  | nil => rfl
  | append_singleton ms m ih =>
    rw [collapse_append, find?_put, ih, List.reverse_append, List.reverse_singleton,
      List.singleton_append, List.find?_cons]
    by_cases h : m.1.name = name <;> simp [h]

theorem mem_of_mem_collapse {m : Key × Node} (h : m ∈ collapse ms) : m ∈ ms := by
  induction ms using List.reverseRecOn with
  | nil => exact h
  | append_singleton ms m' ih =>
    rw [collapse_append] at h
    rcases List.mem_append.mp ((put_perm (nodup_names_collapse ms) m').mem_iff.mp h) with h | h
    · exact List.mem_append_left _ (ih (List.mem_of_mem_filter h))
    · exact List.mem_append_right _ h

theorem collapse_of_nodup (h : (names ms).Nodup) : collapse ms = ms := by
  induction ms using List.reverseRecOn with
  | nil => rfl
  | append_singleton ms m ih =>
    have hn : names (ms ++ [m]) = names ms ++ [m.1.name] := by simp [names]
    rw [hn] at h
    obtain ⟨hms, -, hd⟩ := List.nodup_append.mp h
    rw [collapse_append, ih hms]
    exact put_of_not_mem fun hm => hd _ hm _ (by simp) rfl

/-- Members without repeats are found by their names. -/
theorem eq_filterMap_names (h : (names ms).Nodup) :
    ms = (names ms).filterMap fun name => ms.find? fun m => m.1.name = name := by
  induction ms with
  | nil => rfl
  | cons m ms ih =>
    obtain ⟨hm, hms⟩ := List.nodup_cons.mp h
    have hrest : (names ms).filterMap (fun name => (m :: ms).find? fun m => m.1.name = name) =
        (names ms).filterMap fun name => ms.find? fun m => m.1.name = name := by
      refine List.filterMap_congr fun name hname => ?_
      have hne : m.1.name ≠ name := by
        rintro rfl
        exact hm hname
      simp [hne]
    rw [names_cons, List.filterMap_cons, hrest, ← ih hms]
    simp

/-- The members whose names do not come again later. -/
def lasts : List (Key × Node) → List (Key × Node)
  | [] => []
  | m :: ms => if m.1.name ∈ names ms then lasts ms else m :: lasts ms

theorem lasts_append (ms : List (Key × Node)) (m : Key × Node) :
    lasts (ms ++ [m]) = (lasts ms).filter (fun m' => m'.1.name ≠ m.1.name) ++ [m] := by
  induction ms with
  | nil => simp [lasts]
  | cons m' ms ih =>
    have hn : names (ms ++ [m]) = names ms ++ [m.1.name] := by simp [names]
    rw [List.cons_append, lasts, lasts, ih, hn]
    by_cases hms : m'.1.name ∈ names ms
    · simp [hms]
    · by_cases he : m'.1.name = m.1.name
      · rw [he] at hms
        simp [hms, he]
      · simp [hms, he]

/-- **What remains** are the members whose names do not come again. -/
theorem collapse_perm (ms : List (Key × Node)) : (collapse ms).Perm (lasts ms) := by
  induction ms using List.reverseRecOn with
  | nil => exact .refl _
  | append_singleton ms m ih =>
    rw [collapse_append, lasts_append]
    exact (put_perm (nodup_names_collapse ms) m).trans ((ih.filter _).append_right _)

theorem mem_lasts {m : Key × Node} :
    m ∈ lasts ms ↔ ∃ before after, ms = before ++ m :: after ∧ m.1.name ∉ names after := by
  induction ms with
  | nil => simp [lasts]
  | cons m' ms ih =>
    -- a member is the first one or stands behind it
    have hsplit : (∃ before after, m' :: ms = before ++ m :: after ∧ m.1.name ∉ names after) ↔
        m = m' ∧ m.1.name ∉ names ms ∨ m ∈ lasts ms := by
      rw [ih]
      constructor
      · rintro ⟨before, after, he, hm⟩
        cases before with
        | nil =>
          obtain ⟨rfl, rfl⟩ := List.cons.inj he
          exact .inl ⟨rfl, hm⟩
        | cons b before => exact .inr ⟨before, after, (List.cons.inj he).2, hm⟩
      · rintro (⟨rfl, hm⟩ | ⟨before, after, rfl, hm⟩)
        · exact ⟨[], ms, rfl, hm⟩
        · exact ⟨m' :: before, after, rfl, hm⟩
    rw [hsplit, lasts]
    split_ifs with hm'
    · refine (or_iff_right ?_).symm
      rintro ⟨rfl, hm⟩
      exact hm hm'
    · rw [List.mem_cons, and_iff_left_of_imp]
      rintro rfl
      exact hm'

theorem collapse_collapse (ms : List (Key × Node)) : collapse (collapse ms) = collapse ms :=
  collapse_of_nodup (nodup_names_collapse ms)

/-- Members that come behind find the same before them, collapsed or not. -/
theorem collapse_collapse_append (ms more : List (Key × Node)) :
    collapse (collapse ms ++ more) = collapse (ms ++ more) :=
  calc collapse (collapse ms ++ more)
      = more.foldl put (collapse (collapse ms)) := List.foldl_append
    _ = more.foldl put (collapse ms) := by rw [collapse_collapse]
    _ = collapse (ms ++ more) := List.foldl_append.symm

/-- **Members whose keys repeat.** Each key remains once, in the order of the first members, and with the span
and the node of its last member. So collapsed members remain as they are, as members without repeats do and no
others, and collapsing some of the members before the rest makes no difference. -/
theorem collapse_keeps_last (ms : List (Key × Node)) :
    ((names (collapse ms)).Nodup ∧ names (collapse ms) = (names ms).eraseDups ∧
      ∀ m, m ∈ collapse ms ↔ ∃ before after, ms = before ++ m :: after ∧ m.1.name ∉ names after) ∧
    collapse (collapse ms) = collapse ms ∧ (collapse ms = ms ↔ (names ms).Nodup) ∧
    ∀ more, collapse (collapse ms ++ more) = collapse (ms ++ more) := by
  have hnodup := nodup_names_collapse ms
  refine ⟨⟨hnodup, names_collapse ms, fun m => ?_⟩, collapse_collapse ms, ⟨fun h => ?_, collapse_of_nodup⟩,
    collapse_collapse_append ms⟩
  · rw [(collapse_perm ms).mem_iff, mem_lasts]
  · rwa [h] at hnodup

open Written in
/-- **Each key** has its first place and its last content. -/
theorem collapse_eq {α : Type} (g : Node → α) (ms : List (Key × Node)) :
    (collapse ms).map (fun m => (m.1.name, g m.2)) =
      Form.latest (ms.map fun m => (m.1.name, g m.2)) := by
  have hnames : (ms.map fun m => (m.1.name, g m.2)).map (·.1) = names ms := by
    simp [names]
  rw [Form.latest, hnames, ← names_collapse, eq_filterMap_names (nodup_names_collapse ms),
    List.map_filterMap, ← eq_filterMap_names (nodup_names_collapse ms)]
  refine List.filterMap_congr fun name _ => ?_
  rw [find?_collapse, Form.last?, ← List.map_reverse, List.find?_map]
  rfl

end Members

/-! ### Objects without repeats -/

/-- No object in the node repeats a key. -/
inductive Node.Distinct : Node → Prop
  | scalar (span : Span) (s : Scalar) : Distinct (.scalar span s)
  | array (span : Span) {items : List Node} (h : ∀ n ∈ items, Distinct n) :
      Distinct (.array span items)
  | object (span : Span) {members : List (Key × Node)} (hn : (Members.names members).Nodup)
      (h : ∀ m ∈ members, Distinct m.2) : Distinct (.object span members)

namespace Written

theorem Entries.map_contents {α β γ : Type} {e : Entries β α} {g : α → γ} {h : β → γ} {bs : List β}
    (hg : ∀ b ∈ bs, ∀ offset, g (e.content offset b) = h b) (start : Nat) :
    (e.contents start bs).map g = bs.map h := by
  induction bs generalizing start with
  | nil => rfl
  | cons b bs ih =>
    obtain ⟨hb, hbs⟩ := List.forall_mem_cons.mp hg
    rw [contents, List.map_cons, List.map_cons, hb, ih hbs]

namespace Form

/-- **The node of a form** has the form's value. -/
theorem value_node (f : Form) : ∀ start, (f.node start).value = f.value := by
  induction f using Form.induction with
  | literal l => exact fun _ => rfl
  | array gap items ih =>
    intro start
    rw [node_array, Node.value, Node.itemValues_eq_map, value, itemValues_eq]
    rw [Entries.map_contents fun i hi offset => ih i hi offset]
  | object gap members ih =>
    intro start
    rw [node_object, Node.value, Node.memberValues_eq_map, value, memberValues_eq,
      Members.collapse_eq Node.value]
    rw [Entries.map_contents (h := fun m => (m.1.name, m.2.value)) fun m hm offset => ?_]
    simp only [memberEntries, ih m hm]

/-- **No object in the node of a form** repeats a key. -/
theorem distinct_node (f : Form) : ∀ start, (f.node start).Distinct := by
  induction f using Form.induction with
  | literal l => exact fun _ => .scalar _ _
  | array gap items ih =>
    intro start
    rw [node_array]
    refine .array _ fun n hn => ?_
    obtain ⟨i, hi, offset, rfl⟩ := Entries.mem_contents _ hn
    exact ih i hi offset
  | object gap members ih =>
    intro start
    rw [node_object]
    refine .object _ (Members.nodup_names_collapse _) fun m hm => ?_
    obtain ⟨m', hm', offset, rfl⟩ := Entries.mem_contents _ (Members.mem_of_mem_collapse hm)
    exact ih m' hm' _

end Form

end Written

end JsonSelect
