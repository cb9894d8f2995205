import JsonSelect.Proofs.Tree.Paths
import JsonSelect.Rendering

/-! # The lines of the parts of a node

The units of one displayed line stand for one node, so a line is *at* the path of that node. The lines of a
node begin and end with a line at the node's path, and those between are at longer paths (`Node.bounded`).
Where no object repeats a key, the lines of a part stand together among the lines of the whole, and no line
above or below them is at the path of the part (`Node.within_of_leads`). So the lines at the path of a part
are the first and the last one of the part (`Node.at_iff_endsAt`). -/

namespace JsonSelect

variable {t : Tree} {l : Line} {p q : Path}

/-! ### Numbers of units -/

namespace Tree

/-- The units have the numbers from `first` on. -/
def Numbers (t : Tree) (first : Nat) (us : List TreeUnit) : Prop := us <+: t.units.drop first

/-- The path of the unit with a number. -/
def path? (t : Tree) (id : Nat) : Option Path := (t.unit? id).map (·.path)

theorem numbers_append {first : Nat} {us vs : List TreeUnit} :
    t.Numbers first (us ++ vs) ↔ t.Numbers first us ∧ t.Numbers (first + us.length) vs := by
  unfold Numbers
  rw [← List.drop_drop]
  constructor
  · rintro ⟨rest, h⟩
    rw [← h, List.append_assoc, List.drop_left]
    exact ⟨List.prefix_append _ _, List.prefix_append _ _⟩
  · rintro ⟨⟨rest, h⟩, hvs⟩
    -- `vs` is a prefix of what `us` leaves
    rw [← h, List.drop_left] at hvs
    rw [← h]
    exact (List.prefix_append_right_inj us).mpr hvs

theorem numbers_cons {first : Nat} {u : TreeUnit} {us : List TreeUnit} :
    t.Numbers first (u :: us) ↔ t.unit? first = some u ∧ t.Numbers (first + 1) us := by
  have hone : t.Numbers first [u] ↔ t.unit? first = some u := by
    rw [Numbers, unit?, ← List.head?_drop]
    cases t.units.drop first <;> simp [eq_comm]
  rw [← hone]
  exact @numbers_append t first [u] us

end Tree

/-! ### Lines at a path -/

/-- The line has units, and they are at the path. -/
def Line.At (t : Tree) (l : Line) (p : Path) : Prop := l.ids ≠ [] ∧ ∀ id ∈ l.ids, t.path? id = some p

/-- The line is at a path that begins with `p`. -/
def Line.Under (t : Tree) (l : Line) (p : Path) : Prop := ∃ q, p <+: q ∧ l.At t q

theorem Line.At.unique (hp : l.At t p) (hq : l.At t q) : p = q := by
  obtain ⟨id, hid⟩ := List.exists_mem_of_ne_nil _ hp.1
  exact Option.some.inj ((hp.2 id hid).symm.trans (hq.2 id hid))

theorem Line.At.under (h : l.At t p) : l.Under t p := ⟨p, List.prefix_refl p, h⟩

theorem Line.Under.not_at {s : String} (h : l.Under t (p.child s)) : ¬ l.At t p := by
  obtain ⟨q, hq, h⟩ := h
  intro hat
  rw [h.unique hat] at hq
  have := hq.length_le
  simp only [Path.child, List.length_append, List.length_singleton] at this
  omega

namespace Tree

/-- The line is at the path of a container, or under another part of it than the one that `s` names. -/
def Beside (t : Tree) (p : Path) (s : String) (l : Line) : Prop :=
  l.At t p ∨ ∃ s', s' ≠ s ∧ l.Under t (p.child s')

theorem Beside.not_at {s : String} (h : t.Beside p s l) (q : Path) : ¬ l.At t (p ++ s :: q) := by
  intro hat
  rcases h with h | ⟨s', hne, r, ⟨rest, hr⟩, h⟩
  · have := h.unique hat
    simp at this
  · rw [h.unique hat, Path.child, List.append_assoc] at hr
    exact hne (List.cons.inj (List.append_cancel_left hr)).1

/-- The lines begin and end at the path, with `count` lines at it, and those between are under parts. -/
inductive Ends (t : Tree) (p : Path) : Nat → List Line → Prop
  | one {l : Line} (h : l.At t p) : Ends t p 1 [l]
  | two {l l' : Line} {inner : List Line} (h : l.At t p)
      (hinner : ∀ x ∈ inner, ∃ s, x.Under t (p.child s)) (h' : l'.At t p) :
      Ends t p 2 (l :: (inner ++ [l']))

theorem Ends.under {count : Nat} {ls : List Line} (h : t.Ends p count ls) : ∀ l ∈ ls, l.Under t p := by
  cases h with
  | one h => exact List.forall_mem_singleton.mpr h.under
  | two h hinner h' =>
    intro x hx
    simp only [List.mem_cons, List.mem_append, List.not_mem_nil, or_false] at hx
    rcases hx with rfl | hx | rfl
    · exact h.under
    · obtain ⟨s, q, hq, hat⟩ := hinner x hx
      exact ⟨q, (List.prefix_append p [s]).trans hq, hat⟩
    · exact h'.under

theorem Ends.length_pos {count : Nat} {ls : List Line} (h : t.Ends p count ls) : 0 < ls.length := by
  cases h <;> simp

theorem Ends.brackets {count : Nat} {l' : Line} {inner : List Line}
    (h : t.Ends p count (l :: (inner ++ [l']))) : l.At t p ∧ l'.At t p := by
  generalize hls : l :: (inner ++ [l']) = ls at h
  cases h with
  | one h => simp at hls
  | two h hinner h' =>
    obtain ⟨rfl, htail⟩ := List.cons.inj hls
    obtain ⟨-, hlast⟩ := List.append_inj' htail rfl
    obtain rfl := List.head_eq_of_cons_eq hlast
    exact ⟨h, h'⟩

/-- The lines at the path are the first and the last one. -/
theorem Ends.at_iff {count i : Nat} {ls : List Line} (h : t.Ends p count ls) (hl : ls[i]? = some l) :
    l.At t p ↔ i = 0 ∨ i + 1 = ls.length := by
  obtain ⟨hi, -⟩ := List.getElem?_eq_some_iff.mp hl
  cases h with
  | one h =>
    obtain rfl : i = 0 := by simpa using hi
    obtain rfl := Option.some.inj hl
    simpa using h
  | @two first last inner h hinner h' =>
    cases i with
    | zero =>
      obtain rfl := Option.some.inj hl
      simpa using h
    | succ i =>
      rw [List.getElem?_cons_succ] at hl
      by_cases hlt : i < inner.length
      -- a line between the ends is under a part, so it is not at the path
      · rw [List.getElem?_append_left hlt] at hl
        obtain ⟨s, hs⟩ := hinner l (List.mem_of_getElem? hl)
        have hne : ¬ (i + 1 = 0 ∨ i + 1 + 1 = (first :: (inner ++ [last])).length) := by
          simp
          omega
        exact iff_of_false hs.not_at hne
      · obtain rfl : i = inner.length := by
          simp at hi
          omega
        obtain rfl : last = l := by simpa using hl
        exact iff_of_true h' (.inr (by simp))

theorem Ends.countP {count : Nat} {ls : List Line} (h : t.Ends p count ls) {f : Line → Bool}
    (hf : ∀ l ∈ ls, f l = true ↔ l.At t p) : ls.countP f = count := by
  cases h with
  | @one l h => rw [List.countP_singleton, if_pos ((hf l List.mem_cons_self).mpr h)]
  | @two first last inner h hinner h' =>
    have hfirst : f first = true := (hf first (by simp)).mpr h
    have hlast : f last = true := (hf last (by simp)).mpr h'
    have hnone : inner.countP f = 0 := by
      refine List.countP_eq_zero.mpr fun l hl he => ?_
      obtain ⟨s, hs⟩ := hinner l hl
      exact hs.not_at ((hf l (by simp [hl])).mp he)
    simp [hfirst, hlast, hnone]

/-- **The layout of a node** at a path of a tree: its units have the numbers that they have in the tree, and
what leads up to it stands for it too. -/
def Lays (t : Tree) (p : Path) (n : Node) (block : List Line) : Prop :=
  ∃ depth first lead comma, t.Numbers first (n.units p) ∧
    (∀ id ∈ lead.filterMap Token.unit, t.path? id = some p) ∧ block = n.lines depth first lead comma

end Tree

namespace Node

/-- How many lines of a node are at its path: one for each bracket if there is something between the
brackets, and one otherwise. -/
def endCount : Node → Nat
  | .array _ (_ :: _) => 2
  | .object _ (_ :: _) => 2
  | _ => 1

theorem path?_of_unit? {id : Nat} {u : TreeUnit} (h : t.unit? id = some u) : t.path? id = some u.path := by
  rw [Tree.path?, h, Option.map_some]

@[simp] theorem filterMap_commaIf (comma : Bool) : (commaIf comma).filterMap Token.unit = [] := by
  cases comma <;> rfl

/-- Wherever a node is laid out in a tree, its lines begin and end at its path. -/
def Bounded (t : Tree) (n : Node) : Prop := ∀ p block, t.Lays p n block → t.Ends p n.endCount block

section
variable {n : Node} {ns : List Node} {ms : List (Key × Node)} {depth first index : Nat}

theorem Bounded.under (h : n.Bounded t) {block : List Line} (hb : t.Lays p n block) :
    ∀ l ∈ block, l.Under t p :=
  (h p block hb).under

/-! ### Items and members -/

theorem lays_item {comma : Bool} (hu : t.Numbers first (n.units p)) :
    t.Lays p n (n.lines depth first [] comma) :=
  ⟨depth, first, [], comma, hu, List.forall_mem_nil _, rfl⟩

theorem lays_member {comma : Bool} {text : String} (hkey : t.path? first = some p)
    (hu : t.Numbers (first + 1) (n.units p)) :
    t.Lays p n (n.lines depth (first + 1) [⟨text, some first⟩, .plain ": "] comma) :=
  ⟨depth, first + 1, _, comma, hu, by simpa [Token.plain] using hkey, rfl⟩

theorem numbers_itemUnits (h : t.Numbers first (itemUnits p index (n :: ns))) :
    t.Numbers first (n.units (p.child (indexSegment index))) ∧
      t.Numbers (first + n.unitCount) (itemUnits p (index + 1) ns) := by
  rw [itemUnits, Tree.numbers_append, length_units] at h
  exact h

theorem numbers_memberUnits {m : Key × Node} (h : t.Numbers first (memberUnits p (m :: ms))) :
    t.path? first = some (p.child m.1.name) ∧ t.Numbers (first + 1) (m.2.units (p.child m.1.name)) ∧
      t.Numbers (first + 1 + m.2.unitCount) (memberUnits p ms) := by
  rw [memberUnits, Tree.numbers_cons, Tree.numbers_append, length_units] at h
  exact ⟨path?_of_unit? h.1, h.2⟩

theorem under_itemLines (h : ∀ n ∈ ns, n.Bounded t) (hu : t.Numbers first (itemUnits p index ns)) :
    ∀ l ∈ itemLines depth first ns, ∃ i, index ≤ i ∧ l.Under t (p.child (indexSegment i)) := by
  induction ns generalizing first index with
  | nil => exact List.forall_mem_nil _
  | cons n ns ih =>
    obtain ⟨hn, hns⟩ := List.forall_mem_cons.mp h
    obtain ⟨hun, huns⟩ := numbers_itemUnits hu
    intro l hl
    rcases List.mem_append.mp hl with hl | hl
    · exact ⟨index, Nat.le_refl _, hn.under (lays_item hun) l hl⟩
    · obtain ⟨i, hi, hl⟩ := ih hns huns l hl
      exact ⟨i, by omega, hl⟩

theorem under_memberLines (h : ∀ m ∈ ms, m.2.Bounded t) (hu : t.Numbers first (memberUnits p ms)) :
    ∀ l ∈ memberLines depth first ms, ∃ name ∈ Members.names ms, l.Under t (p.child name) := by
  induction ms generalizing first with
  | nil => exact List.forall_mem_nil _
  | cons m ms ih =>
    obtain ⟨hm, hms⟩ := List.forall_mem_cons.mp h
    obtain ⟨hkey, hum, hums⟩ := numbers_memberUnits hu
    intro l hl
    rcases List.mem_append.mp hl with hl | hl
    · exact ⟨m.1.name, List.mem_cons_self, hm.under (lays_member hkey hum) l hl⟩
    · obtain ⟨name, hname, hl⟩ := ih hms hums l hl
      exact ⟨name, List.mem_cons_of_mem _ hname, hl⟩

end

/-! ### The ends of a node -/

/-- A line with a unit at the path, and with no unit elsewhere. -/
theorem at_line {depth id : Nat} {text : String} {lead rest : List Token}
    (hlead : ∀ id ∈ lead.filterMap Token.unit, t.path? id = some p) (hid : t.path? id = some p)
    (hrest : ∀ id ∈ rest.filterMap Token.unit, t.path? id = some p) :
    Line.At t ⟨depth, lead ++ ⟨text, some id⟩ :: rest⟩ p := by
  have hids : Line.ids ⟨depth, lead ++ ⟨text, some id⟩ :: rest⟩ =
      lead.filterMap Token.unit ++ id :: rest.filterMap Token.unit := by
    simp [Line.ids]
  refine ⟨by simp [hids], fun id' hid' => ?_⟩
  rw [hids] at hid'
  rcases List.mem_append.mp hid' with h | h
  · exact hlead id' h
  · rcases List.mem_cons.mp h with rfl | h
    · exact hid
    · exact hrest id' h

theorem path?_commaIf (comma : Bool) : ∀ id ∈ (commaIf comma).filterMap Token.unit, t.path? id = some p := by
  rw [filterMap_commaIf]
  exact List.forall_mem_nil _

section
variable {depth first last : Nat} {left right : String} {lead : List Token} {comma : Bool}

theorem ends_empty (hlead : ∀ id ∈ lead.filterMap Token.unit, t.path? id = some p)
    (hopening : t.path? first = some p) (hclosing : t.path? last = some p) :
    t.Ends p 1 [⟨depth, lead ++ [⟨left, some first⟩, ⟨right, some last⟩] ++ commaIf comma⟩] := by
  rw [List.append_assoc]
  refine .one (at_line hlead hopening ?_)
  simpa using hclosing

theorem ends_brackets {inner : List Line} (hlead : ∀ id ∈ lead.filterMap Token.unit, t.path? id = some p)
    (hopening : t.path? first = some p) (hclosing : t.path? last = some p)
    (hinner : ∀ l ∈ inner, ∃ s, l.Under t (p.child s)) :
    t.Ends p 2 (⟨depth, lead ++ [⟨left, some first⟩]⟩ ::
      (inner ++ [⟨depth, ⟨right, some last⟩ :: commaIf comma⟩])) := by
  have hnil : ∀ id ∈ ([] : List Token).filterMap Token.unit, t.path? id = some p := List.forall_mem_nil _
  exact .two (at_line hlead hopening hnil) hinner (at_line hnil hclosing (path?_commaIf comma))

end

/-- **A node's lines** begin and end at its path. -/
theorem bounded (n : Node) : n.Bounded t := by
  induction n using Node.induction with
  | scalar span s =>
    rintro p block ⟨depth, first, lead, comma, hu, hlead, rfl⟩
    obtain ⟨hfirst, -⟩ := Tree.numbers_cons.mp hu
    rw [lines, List.append_assoc]
    exact .one (at_line hlead (path?_of_unit? hfirst) (path?_commaIf comma))
  | array span items ih =>
    rintro p block ⟨depth, first, lead, comma, hu, hlead, rfl⟩
    rw [units, Tree.numbers_cons, Tree.numbers_append, Tree.numbers_cons, length_itemUnits] at hu
    obtain ⟨hopening, hitems, hclosing, -⟩ := hu
    have hopening := path?_of_unit? hopening
    have hclosing := path?_of_unit? hclosing
    cases items with
    | nil => exact ends_empty hlead hopening hclosing
    | cons n ns =>
      refine ends_brackets hlead hopening hclosing fun l hl => ?_
      obtain ⟨i, -, hl⟩ := under_itemLines ih hitems l hl
      exact ⟨_, hl⟩
  | object span members ih =>
    rintro p block ⟨depth, first, lead, comma, hu, hlead, rfl⟩
    rw [units, Tree.numbers_cons, Tree.numbers_append, Tree.numbers_cons, length_memberUnits] at hu
    obtain ⟨hopening, hmembers, hclosing, -⟩ := hu
    have hopening := path?_of_unit? hopening
    have hclosing := path?_of_unit? hclosing
    cases members with
    | nil => exact ends_empty hlead hopening hclosing
    | cons m ms =>
      refine ends_brackets hlead hopening hclosing fun l hl => ?_
      obtain ⟨name, -, hl⟩ := under_memberLines ih hmembers l hl
      exact ⟨_, hl⟩

/-! ### The lines of a part -/

/-- The lines of the part that `s` names, among the lines of a container at `p`. -/
def Parts (t : Tree) (p : Path) (s : String) (n : Node) (block : List Line) : Prop :=
  ∃ above part below, block = above ++ part ++ below ∧ t.Lays (p.child s) n part ∧
    ∀ l ∈ above ++ below, t.Beside p s l

theorem Parts.around {s : String} {n : Node} {block : List Line} (h : Parts t p s n block)
    {above below : List Line} (ha : ∀ l ∈ above, t.Beside p s l) (hb : ∀ l ∈ below, t.Beside p s l) :
    Parts t p s n (above ++ block ++ below) := by
  obtain ⟨above', part, below', rfl, hpart, hbeside⟩ := h
  refine ⟨above ++ above', part, below' ++ below, by simp, hpart, fun l hl => ?_⟩
  simp only [List.mem_append] at hl hbeside
  rcases hl with (hl | hl) | hl | hl
  · exact ha l hl
  · exact hbeside l (.inl hl)
  · exact hbeside l (.inr hl)
  · exact hb l hl

section
variable {n : Node} {depth first index : Nat}

theorem parts_itemLines {ns : List Node} {i : Nat} (hu : t.Numbers first (itemUnits p index ns))
    (hi : ns[i]? = some n) : Parts t p (indexSegment (index + i)) n (itemLines depth first ns) := by
  induction ns generalizing first index i with
  | nil => cases hi
  | cons n' ns ih =>
    obtain ⟨hun, huns⟩ := numbers_itemUnits hu
    cases i with
    | zero =>
      obtain rfl : n' = n := by simpa using hi
      -- the lines below are those of items with higher indices
      refine ⟨[], _, _, rfl, lays_item hun, fun l hl => ?_⟩
      obtain ⟨j, hj, hl⟩ := under_itemLines (fun n _ => n.bounded) huns l hl
      refine .inr ⟨_, fun e => ?_, hl⟩
      have := indexSegment_injective e
      omega
    | succ i =>
      have htail := @ih (first + n'.unitCount) (index + 1) i huns (by simpa using hi)
      rw [Nat.add_right_comm, Nat.add_assoc] at htail
      have hfront : ∀ l ∈ n'.lines depth first [] (!ns.isEmpty),
          t.Beside p (indexSegment (index + (i + 1))) l := by
        intro l hl
        refine .inr ⟨_, fun e => ?_, n'.bounded.under (lays_item hun) l hl⟩
        have := indexSegment_injective e
        omega
      have := htail.around hfront (List.forall_mem_nil _)
      rwa [List.append_nil] at this

theorem parts_memberLines {ms : List (Key × Node)} {key : Key} (hu : t.Numbers first (memberUnits p ms))
    (hn : (Members.names ms).Nodup) (hm : (key, n) ∈ ms) :
    Parts t p key.name n (memberLines depth first ms) := by
  induction ms generalizing first with
  | nil => cases hm
  | cons m ms ih =>
    obtain ⟨hnew, hn⟩ := List.nodup_cons.mp hn
    obtain ⟨hkey, hum, hums⟩ := numbers_memberUnits hu
    rcases List.mem_cons.mp hm with rfl | hm
    -- the lines below are those of members with other names
    · refine ⟨[], _, _, rfl, lays_member hkey hum, fun l hl => ?_⟩
      obtain ⟨name, hname, hl⟩ := under_memberLines (fun m _ => m.2.bounded) hums l hl
      refine .inr ⟨name, fun e => hnew ?_, hl⟩
      rwa [e] at hname
    · have hmem : key.name ∈ Members.names ms := List.mem_map_of_mem hm
      have hne : m.1.name ≠ key.name := fun e => by
        rw [← e] at hmem
        exact hnew hmem
      have hfront : ∀ l ∈ m.2.lines depth (first + 1)
          [⟨Text.quote m.1.name, some first⟩, .plain ": "] (!ms.isEmpty), t.Beside p key.name l :=
        fun l hl => .inr ⟨_, hne, m.2.bounded.under (lays_member hkey hum) l hl⟩
      have := (ih hums hn hm).around hfront (List.forall_mem_nil _)
      rwa [List.append_nil] at this

theorem parts_array {span : Span} {items : List Node} {i : Nat} {block : List Line}
    (h : t.Lays p (.array span items) block) (hi : items[i]? = some n) :
    Parts t p (indexSegment i) n block := by
  have hends := (Node.array span items).bounded p block h
  obtain ⟨depth, first, lead, comma, hu, hlead, rfl⟩ := h
  rw [units, Tree.numbers_cons, Tree.numbers_append] at hu
  have hitems : Parts t p (indexSegment (0 + i)) n (itemLines (depth + 1) (first + 1) items) :=
    parts_itemLines hu.2.1 hi
  rw [Nat.zero_add] at hitems
  cases items with
  | nil => cases hi
  | cons n' ns =>
    obtain ⟨hopening, hclosing⟩ := hends.brackets
    exact hitems.around (List.forall_mem_singleton.mpr (.inl hopening))
      (List.forall_mem_singleton.mpr (.inl hclosing))

theorem parts_object {span : Span} {members : List (Key × Node)} {key : Key} {block : List Line}
    (h : t.Lays p (.object span members) block) (hn : (Members.names members).Nodup)
    (hm : (key, n) ∈ members) : Parts t p key.name n block := by
  have hends := (Node.object span members).bounded p block h
  obtain ⟨depth, first, lead, comma, hu, hlead, rfl⟩ := h
  rw [units, Tree.numbers_cons, Tree.numbers_append] at hu
  have hmembers : Parts t p key.name n (memberLines (depth + 1) (first + 1) members) :=
    parts_memberLines hu.2.1 hn hm
  cases members with
  | nil => cases hm
  | cons m ms =>
    obtain ⟨hopening, hclosing⟩ := hends.brackets
    exact hmembers.around (List.forall_mem_singleton.mpr (.inl hopening))
      (List.forall_mem_singleton.mpr (.inl hclosing))

end

/-- The lines of the node at a path stand together in the block, and no other line of it is at the path. -/
def Within (t : Tree) (q : Path) (m : Node) (block : List Line) : Prop :=
  ∃ above part below, block = above ++ part ++ below ∧ t.Lays q m part ∧ ∀ l ∈ above ++ below, ¬ l.At t q

theorem Parts.within {s : String} {n m : Node} {block : List Line} (h : Parts t p s n block)
    (hpart : ∀ part, t.Lays (p.child s) n part → Within t (p.child s ++ q) m part) :
    Within t (p ++ s :: q) m block := by
  obtain ⟨above, part, below, rfl, hlays, hbeside⟩ := h
  obtain ⟨above', inner, below', rfl, hinner, hnot⟩ := hpart part hlays
  have hpath : p.child s ++ q = p ++ s :: q := by
    rw [Path.child, List.append_assoc]
    rfl
  rw [hpath] at hinner hnot
  refine ⟨above ++ above', inner, below' ++ below, by simp, hinner, fun l hl => ?_⟩
  simp only [List.mem_append] at hl hbeside hnot
  rcases hl with (hl | hl) | hl | hl
  · exact (hbeside l (.inl hl)).not_at q
  · exact hnot l (.inl hl)
  · exact hnot l (.inr hl)
  · exact (hbeside l (.inr hl)).not_at q

/-- **The lines of a part** stand together among those of the whole, and no other line is at its path. -/
theorem within_of_leads {n m : Node} {as : List Accessor} (hd : n.Distinct) (h : n.Leads as m) :
    ∀ {p block}, t.Lays p n block → Within t (p ++ as.map Accessor.segment) m block := by
  induction h with
  | here n =>
    intro p block hb
    rw [List.map_nil, List.append_nil]
    exact ⟨[], block, [], by simp, hb, List.forall_mem_nil _⟩
  | item span hi hl ih =>
    intro p block hb
    cases hd with
    | array _ hd =>
      exact (parts_array hb hi).within fun _ hpart => ih (hd _ (List.mem_of_getElem? hi)) hpart
  | member span hm hl ih =>
    intro p block hb
    cases hd with
    | object _ hn hd => exact (parts_object hb hn hm).within fun _ hpart => ih (hd _ hm) hpart

theorem Within.countP {m : Node} {block : List Line} (h : Within t q m block) {f : Line → Bool}
    (hf : ∀ l ∈ block, f l = true ↔ l.At t q) : block.countP f = m.endCount := by
  obtain ⟨above, part, below, rfl, hpart, hnot⟩ := h
  have hother : ∀ ls : List Line, (∀ l ∈ ls, l ∈ above ++ below) → ls.countP f = 0 := by
    refine fun ls hls => List.countP_eq_zero.mpr fun l hl he => ?_
    have hmem := hls l hl
    refine hnot l hmem ((hf l ?_).mp he)
    rcases List.mem_append.mp hmem with h | h <;> simp [h]
  have hends := (m.bounded q part hpart).countP fun l hl => hf l (by simp [hl])
  rw [List.countP_append, List.countP_append, hends, hother above (fun l hl => by simp [hl]),
    hother below (fun l hl => by simp [hl]), Nat.zero_add, Nat.add_zero]

end Node

/-! ### The ends of a part of a tree -/

/-- Line `i` of a tree is the first or the last one of a node at a path. -/
def Tree.EndsAt (t : Tree) (p : Path) (n : Node) (i : Nat) : Prop :=
  ∃ above block below, t.lines = above ++ block ++ below ∧ t.Lays p n block ∧
    (i = above.length ∨ i + 1 = above.length + block.length)

/-- An entry of three rows one after the other is one of the first, the second or the third. -/
theorem getElem?_three {α : Type} {above block below : List α} {i : Nat} {a : α}
    (h : (above ++ block ++ below)[i]? = some a) :
    i < above.length ∧ a ∈ above ∨ (∃ j, i = above.length + j ∧ block[j]? = some a) ∨
      above.length + block.length ≤ i ∧ a ∈ below := by
  by_cases hi : i < above.length
  · rw [List.append_assoc, List.getElem?_append_left hi] at h
    exact .inl ⟨hi, List.mem_of_getElem? h⟩
  · obtain ⟨j, rfl⟩ := Nat.exists_eq_add_of_le (Nat.le_of_not_lt hi)
    rw [List.append_assoc, List.getElem?_append_right (by omega), Nat.add_sub_cancel_left] at h
    by_cases hj : j < block.length
    · rw [List.getElem?_append_left hj] at h
      exact .inr (.inl ⟨j, rfl, h⟩)
    · rw [List.getElem?_append_right (by omega)] at h
      exact .inr (.inr ⟨by omega, List.mem_of_getElem? h⟩)

namespace Node

variable {root m : Node} {as : List Accessor}

theorem lays_tree (root : Node) : root.tree.Lays [] root root.tree.lines :=
  ⟨0, 0, [], false, List.prefix_refl _, List.forall_mem_nil _, rfl⟩

/-- Each line of a tree is at a path. -/
theorem exists_at (hl : l ∈ root.tree.lines) : ∃ q, l.At root.tree q := by
  obtain ⟨q, -, h⟩ := root.bounded.under root.lays_tree l hl
  exact ⟨q, h⟩

theorem within_tree (hd : root.Distinct) (h : root.Leads as m) :
    Within root.tree (as.map Accessor.segment) m root.tree.lines :=
  within_of_leads hd h root.lays_tree

/-- **The lines at the path of a part** are the first and the last one of the part. -/
theorem at_iff_endsAt (hd : root.Distinct) (h : root.Leads as m) {i : Nat}
    (hl : root.tree.lines[i]? = some l) :
    l.At root.tree (as.map Accessor.segment) ↔ root.tree.EndsAt (as.map Accessor.segment) m i := by
  constructor
  · intro hat
    obtain ⟨above, part, below, hlines, hpart, hnot⟩ := within_tree hd h
    refine ⟨above, part, below, hlines, hpart, ?_⟩
    rw [hlines] at hl
    rcases getElem?_three hl with ⟨-, hmem⟩ | ⟨j, rfl, hj⟩ | ⟨-, hmem⟩
    · exact absurd hat (hnot l (List.mem_append_left _ hmem))
    · have := ((m.bounded _ part hpart).at_iff hj).mp hat
      omega
    · exact absurd hat (hnot l (List.mem_append_right _ hmem))
  · rintro ⟨above, block, below, hlines, hblock, hi⟩
    -- wherever a layout at the path stands among the lines, its ends are at the path
    have hends := m.bounded _ block hblock
    have := hends.length_pos
    rw [hlines] at hl
    rcases getElem?_three hl with ⟨hlt, -⟩ | ⟨j, rfl, hj⟩ | ⟨hle, -⟩
    · omega
    · exact (hends.at_iff hj).mpr (by omega)
    · omega

end Node

end JsonSelect
