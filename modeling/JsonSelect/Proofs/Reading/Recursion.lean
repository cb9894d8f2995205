import JsonSelect.Proofs.Document
import JsonSelect.Proofs.Reading.Agreement

/-! # How deep the grammar recurses

The rule for values calls itself for the parts of arrays and objects. Wherever it is tried in a source, be that
a document or not, the count of brackets stands between tokens there, with as many brackets open as containers
are being read (`counted_of_entered`): tokens and values that were read leave the count as it is, and nothing
else was passed over. So in a source that is not refused for its depth the rule is never tried below
`maxDepth` levels, and a larger budget changes nothing (`document_within_levels`). -/

namespace JsonSelect.Reading

open Rule Written DepthScan

/-- The rule for values whose parts are read by `value`. -/
def valueOf (value : Rule Node) : Rule Node :=
  padded do
    let (span, node) ← spanned (spanless value)
    return node span

theorem valueWithin_succ (n : Nat) : valueWithin (n + 1) = valueOf (valueWithin n) := rfl

/-! ### Where the rule is tried -/

/-- What the rule for values of `n + 1` levels does at `k` depends on what the rule for its parts does
at `k'`. -/
def TriesPart (n : Nat) (k k' : Cursor) : Prop :=
  ∃ value : Rule Node, (∀ j, j ≠ k' → value j = valueWithin n j) ∧ valueOf value k ≠ valueWithin (n + 1) k

/-- In reading a source the rule for values of `n` levels is tried at a cursor, with `opened` containers
around it that are being read. -/
inductive Entered (source : List Char) : Nat → Nat → Cursor → Prop
  | root (n : Nat) : Entered source n 0 (Cursor.start source)
  | part {n opened : Nat} {k k' : Cursor} (h : Entered source (n + 1) opened k)
      (hk : TriesPart n k k') : Entered source n (opened + 1) k'

/-! ### Places that are counted -/

/-- In front of the cursor the count of brackets stands between tokens, with `opened` brackets open. -/
def Counted (source : List Char) (opened : Nat) (k : Cursor) : Prop :=
  ∃ before, (Cursor.start source).Passes before k ∧ DepthScan.start.scan before = between opened

section
variable {source : List Char} {opened d : Nat} {k k' : Cursor} {cs : List Char}

theorem counted_start (source : List Char) : Counted source 0 (Cursor.start source) :=
  ⟨[], .refl _, rfl⟩

theorem Counted.passes (h : Counted source opened k) (hp : k.Passes cs k')
    (hs : (between opened).scan cs = between d) : Counted source d k' := by
  obtain ⟨before, hb, hc⟩ := h
  exact ⟨before ++ cs, hb.trans hp, by rw [scan_append, hc, hs]⟩

/-- A text that nests leaves the count as it is. -/
theorem Counted.nests {m : Nat} (h : Counted source opened k) (hp : k.Passes cs k') (hn : Nests cs m) :
    Counted source opened k' :=
  h.passes hp (hn.scan opened)

theorem Counted.blanks {u : Unit} (h : Counted source opened k) (hr : blanks.Reads k u k') :
    Counted source opened k' := by
  obtain ⟨cs, hp, hb, -⟩ := reads_blanks.mp hr
  exact h.nests hp (nests_blanks hb)

/-- A symbol that is no bracket, with blanks around it. -/
theorem Counted.symbol {c : Char} {u : Unit} (hc : isFlat c = true) (h : Counted source opened k)
    (hr : (padded (symbol c)).Reads k u k') : Counted source opened k' := by
  obtain ⟨cs, ds, k₁, k₂, ⟨h₁, hb, -⟩, h₂, h₃, hd, -⟩ := reads_padded.mp hr
  have hc : Nests [c] 0 := nests_flat (List.forall_mem_singleton.mpr hc)
  exact ((h.nests h₁ (nests_blanks hb)).nests (reads_symbol.mp h₂) hc).nests h₃ (nests_blanks hd)

theorem Counted.string {s : String} (h : Counted source opened k) (hr : stringLiteral.Reads k s k') :
    Counted source opened k' := by
  obtain ⟨raw, hc, -, -, hp⟩ := reads_stringLiteral.mp hr
  exact h.nests hp (nests_enclosed hc)

theorem Counted.value {n : Nat} {nd : Node} (h : Counted source opened k)
    (hr : (valueWithin n).Reads k nd k') : Counted source opened k' := by
  obtain ⟨pad, f, ⟨hb, ha⟩, hf, hp, -⟩ := (reads_valueWithin n).sound hr
  exact h.nests hp ((nests_blanks hb).around (nests_chars (grammatical_of_readable hf)) (nests_blanks ha))

theorem DepthScan.Shallow.depth_scan {s : DepthScan} (h : s.Shallow cs) (hs : s.depth ≤ maxDepth) :
    (s.scan cs).depth ≤ maxDepth := by
  induction cs generalizing s with
  | nil => exact hs
  | cons c cs ih => exact ih h.2 h.1

/-- A source that is not refused has no place that is counted too deep. -/
theorem Counted.le_maxDepth (hs : tooDeepAt? source = none) (h : Counted source opened k) :
    opened ≤ maxDepth := by
  obtain ⟨before, hp, hc⟩ := h
  have hsource : source = before ++ k.ahead := hp.ahead
  have hshallow := (tooDeepFrom?_eq_none 0).mp hs
  rw [hsource, shallow_append] at hshallow
  have hle := hshallow.1.depth_scan (Nat.zero_le _)
  rwa [hc] at hle

end

/-! ### What a value depends on -/

section
variable {source : List Char} {opened n : Nat} {k : Cursor} {value : Rule Node}

theorem bracketed_congr {α : Type} {left right : Char} {inside inside' : Rule α}
    (hl : left = '[' ∨ left = '\x7b') (hk : Counted source opened k)
    (h : ∀ k', Counted source (opened + 1) k' → inside k' = inside' k') :
    bracketed left right inside k = bracketed left right inside' k := by
  have hopen : (between opened).scan [left] = between (opened + 1) := by
    rcases hl with rfl | rfl <;> rfl
  refine bind_congr rfl fun _ k₁ h₁ => bind_congr ?_ fun _ _ _ => rfl
  have hk₁ := hk.passes (reads_symbol.mp h₁) hopen
  exact padded_congr fun k₂ h₂ => h k₂ (hk₁.blanks h₂)

theorem member_congr (hk : Counted source opened k)
    (h : ∀ k', Counted source opened k' → valueWithin n k' = value k') :
    member (valueWithin n) k = member value k := by
  refine labelled_congr _ (bind_congr rfl fun ⟨span, name⟩ k₁ h₁ => bind_congr rfl fun _ k₂ h₂ => ?_)
  have hk₁ := hk.string (reads_spanned.mp h₁).2
  exact bind_congr (h k₂ (hk₁.symbol (by decide) h₂)) fun _ _ _ => rfl

theorem closed_items (source : List Char) (opened n : Nat) :
    Closed (Counted source opened) (valueWithin n) comma where
  item hk hr := hk.value hr
  separator hk hr := hk.symbol (by decide) hr

theorem closed_members (source : List Char) (opened n : Nat) :
    Closed (Counted source opened) (member (valueWithin n)) comma where
  item {k m k'} hk hr := by
    obtain ⟨key, nd⟩ := m
    obtain ⟨k₁, k₂, -, h₁, h₂, h₃⟩ := ReadsForms.reads_member.mp hr
    exact ((hk.string h₁).symbol (by decide) h₂).value h₃
  separator hk hr := hk.symbol (by decide) hr

/-- **What a value depends on.** At a place that is counted, the rule for values depends on the rule for its
parts only at places that are counted one deeper. -/
theorem valueOf_congr (hk : Counted source opened k)
    (h : ∀ k', Counted source (opened + 1) k' → valueWithin n k' = value k') :
    valueOf (valueWithin n) k = valueOf value k := by
  have harray : ∀ k', Counted source opened k' → array (valueWithin n) k' = array value k' :=
    fun k' hk' => labelled_congr _ (bracketed_congr (.inl rfl) hk' fun _ hk' =>
      separated_congr (closed_items source _ n) h hk')
  have hobject : ∀ k', Counted source opened k' → object (valueWithin n) k' = object value k' :=
    fun k' hk' => labelled_congr _ (bracketed_congr (.inr rfl) hk' fun _ hk' =>
      bind_congr (separated_congr (closed_members source _ n) (fun _ hk => member_congr hk h) hk')
        fun _ _ _ => rfl)
  refine padded_congr fun k₁ h₁ => bind_congr (spanned_congr ?_) fun _ _ _ => rfl
  have hk₁ := hk.blanks h₁
  -- scalars have no parts
  iterate 5 refine orElse_congr rfl ?_
  exact orElse_congr (bind_congr (harray k₁ hk₁) fun _ _ _ => rfl)
    (bind_congr (hobject k₁ hk₁) fun _ _ _ => rfl)

end

/-! ### Sources -/

/-- **Wherever the rule is tried** the count of brackets is that of the containers around it. -/
theorem counted_of_entered {source : List Char} {n opened : Nat} {k : Cursor}
    (h : Entered source n opened k) : Counted source opened k := by
  induction h with
  | root n => exact counted_start source
  | part _ hk ih =>
    obtain ⟨value, hvalue, hne⟩ := hk
    by_contra hk'
    refine hne (valueOf_congr ih fun j hj => (hvalue j ?_).symm).symm
    rintro rfl
    exact hk' hj

/-- Where fewer containers can still be opened than levels are left, more levels change nothing. -/
theorem valueWithin_eq {source : List Char} (hs : tooDeepAt? source = none) {m n opened : Nat} {k : Cursor}
    (hk : Counted source opened k) (hm : maxDepth < opened + m) (hmn : m ≤ n) :
    valueWithin m k = valueWithin n k := by
  induction m generalizing n opened k with
  | zero => exact absurd hm (Nat.not_lt.mpr (hk.le_maxDepth hs))
  | succ m ih =>
    obtain ⟨n, rfl⟩ : ∃ n', n = n' + 1 := ⟨n - 1, by omega⟩
    rw [valueWithin_succ, valueWithin_succ]
    exact valueOf_congr hk fun k' hk' => ih hk' (by omega) (by omega)

/-- **How deep the grammar recurses.** In a source that is not refused for its depth, the rule for values is
tried with at most `maxDepth` containers open, and only where the count of brackets in front of it ends
outside string literals with that depth. More levels than `Document.levels` change neither what is read nor
what is noted. -/
theorem recursion_within_depth {source : String} (h : tooDeepAt? source.toList = none) :
    (∀ n opened k, Entered source.toList n opened k → opened ≤ maxDepth ∧
      ∃ before, (Cursor.start source.toList).Passes before k ∧
        DepthScan.start.scan before = ⟨opened, false, false⟩) ∧
    ∀ n, Document.levels ≤ n →
      documentWithin n (Cursor.start source.toList) = Document.reading source := by
  refine ⟨fun n opened k he => ?_, fun n hn => ?_⟩
  · have hk := counted_of_entered he
    exact ⟨hk.le_maxDepth h, hk⟩
  · have hv := valueWithin_eq h (counted_start _) (Nat.lt_add_left 0 (Nat.lt_succ_self maxDepth)) hn
    exact (labelled_congr _ (bind_congr hv fun _ _ _ => rfl)).symm

/-- In front of the first of two closing brackets behind one opening bracket, the rule is tried for an item. -/
theorem recursion_stray_bracket : tooDeepAt? "[]]".toList = none ∧
    Entered "[]]".toList 0 1 ⟨[']', ']'], 1⟩ ∧
      (∃ before, (Cursor.start "[]]".toList).Passes before ⟨[']', ']'], 1⟩ ∧
        DepthScan.start.scan before = ⟨1, false, false⟩) ∧
      documentWithin 1000 (Cursor.start "[]]".toList) = Document.reading "[]]" := by
  have hs : tooDeepAt? "[]]".toList = none := by decide
  -- an item that is read there takes the bracket that the array ends with
  let item : Rule Node := fun k =>
    if k = ⟨[']', ']'], 1⟩ then ⟨some (.scalar ⟨1, 2⟩ .null, ⟨[], 3⟩), id⟩ else fail k
  have hitem : ∀ k, k ≠ ⟨[']', ']'], 1⟩ → item k = valueWithin 0 k := fun k hk => if_neg hk
  have hne : valueOf item (Cursor.start "[]]".toList) ≠ valueWithin 1 (Cursor.start "[]]".toList) :=
    fun h => absurd (congrArg (·.result.isSome) h) (by decide)
  have he : Entered "[]]".toList 0 1 ⟨[']', ']'], 1⟩ := .part (.root 1) ⟨item, hitem, hne⟩
  obtain ⟨hentered, hlevels⟩ := recursion_within_depth hs
  exact ⟨hs, he, (hentered 0 1 _ he).2, hlevels 1000 (by decide)⟩

end JsonSelect.Reading
