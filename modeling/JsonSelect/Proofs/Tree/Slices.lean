import JsonSelect.Proofs.Document
import JsonSelect.Proofs.Tree.Paths
import JsonSelect.Proofs.Written.Parts
import Mathlib.Data.String.Basic

/-! # Slices of a source

What a source holds in the span of a node is a document of its own, and its root is the node with all spans
moved to the front (`Document.slices_parse`). The node of a form depends on where the form stands by its
spans only (`Form.node_forward`), and a part of a form is a form that nests no deeper (`Form.Holds`); so the
slice has the derivation that the node came from, without blanks around it. -/

namespace JsonSelect

open Reading Written Text

/-! ### Moving spans -/

namespace Span

/-- A span `k` bytes further on. -/
def forward (k : Nat) (s : Span) : Span := ⟨s.start + k, s.stop + k⟩

/-- A span `k` bytes further to the front. -/
def back (k : Nat) (s : Span) : Span := ⟨s.start - k, s.stop - k⟩

@[simp] theorem back_forward (k : Nat) (s : Span) : (s.forward k).back k = s := by
  simp [forward, back]

end Span

namespace Node

mutual

/-- A node with its spans, and the spans of all parts, changed by `g`. -/
def mapSpans (g : Span → Span) : Node → Node
  | .scalar span s => .scalar (g span) s
  | .array span items => .array (g span) (mapItemSpans g items)
  | .object span members => .object (g span) (mapMemberSpans g members)

/-- The items of an array with changed spans. -/
def mapItemSpans (g : Span → Span) : List Node → List Node
  | [] => []
  | n :: ns => n.mapSpans g :: mapItemSpans g ns

/-- The members of an object with changed spans. -/
def mapMemberSpans (g : Span → Span) : List (Key × Node) → List (Key × Node)
  | [] => []
  | (key, n) :: ms => (⟨key.name, g key.span⟩, n.mapSpans g) :: mapMemberSpans g ms

end

variable {g : Span → Span}

theorem mapItemSpans_eq (g : Span → Span) (ns : List Node) : mapItemSpans g ns = ns.map (mapSpans g) := by
  induction ns with
  | nil => rfl
  | cons n ns ih => rw [mapItemSpans, ih, List.map_cons]

theorem mapMemberSpans_eq (g : Span → Span) (ms : List (Key × Node)) :
    mapMemberSpans g ms = ms.map fun m => (⟨m.1.name, g m.1.span⟩, m.2.mapSpans g) := by
  induction ms with
  | nil => rfl
  | cons m ms ih => rw [mapMemberSpans, ih, List.map_cons]

theorem mapSpans_id (n : Node) : n.mapSpans id = n := by
  induction n using Node.induction with
  | scalar span s => rfl
  | array span items ih =>
    rw [mapSpans, mapItemSpans_eq, List.map_congr_left ih, List.map_id']
    rfl
  | object span members ih =>
    rw [mapSpans, mapMemberSpans_eq]
    refine congrArg (object span) ((List.map_congr_left fun m hm => ?_).trans (List.map_id members))
    rw [ih m hm]
    rfl

theorem mapSpans_comp (g' : Span → Span) (n : Node) :
    (n.mapSpans g).mapSpans g' = n.mapSpans (g' ∘ g) := by
  induction n using Node.induction with
  | scalar span s => rfl
  | array span items ih =>
    rw [mapSpans, mapSpans, mapSpans, mapItemSpans_eq, mapItemSpans_eq, mapItemSpans_eq, List.map_map]
    exact congrArg (array _) (List.map_congr_left ih)
  | object span members ih =>
    rw [mapSpans, mapSpans, mapSpans, mapMemberSpans_eq, mapMemberSpans_eq, mapMemberSpans_eq, List.map_map]
    refine congrArg (object _) (List.map_congr_left fun m hm => ?_)
    rw [Function.comp_apply, ih m hm]
    rfl

/-- A change of spans that undoes another one gives the node back. -/
theorem mapSpans_mapSpans {g' : Span → Span} (h : ∀ s, g' (g s) = s) (n : Node) :
    (n.mapSpans g).mapSpans g' = n := by
  have hid : g' ∘ g = id := funext h
  rw [mapSpans_comp, hid, mapSpans_id]

end Node

/-- Members are collapsed by their names alone. -/
theorem Members.collapse_map {φ : Key × Node → Key × Node} (h : ∀ m, (φ m).1.name = m.1.name)
    (ms : List (Key × Node)) : collapse (ms.map φ) = (collapse ms).map φ := by
  have hput : ∀ ms m, put (ms.map φ) (φ m) = (put ms m).map φ := fun ms m => by
    induction ms with
    | nil => rfl
    | cons m' ms ih =>
      rw [List.map_cons, put, put, h, h]
      split
      · rw [List.map_cons]
      · rw [ih, List.map_cons]
  induction ms using List.reverseRecOn with
  | nil => rfl
  | append_singleton ms m ih =>
    rw [List.map_append, List.map_singleton, collapse_append, collapse_append, ih, hput]

namespace Written

/-! ### Where a form stands -/

theorem Entries.contents_add {α β : Type} {e : Entries β α} {φ : α → α} {bs : List β} {k : Nat}
    (h : ∀ b ∈ bs, ∀ offset, e.content (offset + k) b = φ (e.content offset b)) (start : Nat) :
    e.contents (start + k) bs = (e.contents start bs).map φ := by
  induction bs generalizing start with
  | nil => rfl
  | cons b bs ih =>
    obtain ⟨hb, hbs⟩ := List.forall_mem_cons.mp h
    have hhead : start + k + byteLength (e.lead b) = start + byteLength (e.lead b) + k := by omega
    have htail : start + k + byteLength (e.text b) + 1 = start + byteLength (e.text b) + 1 + k := by
      omega
    rw [contents, contents, hhead, htail, hb, ih hbs, List.map_cons]

namespace Form

variable {f : Form}

theorem span_node (f : Form) (start : Nat) :
    (f.node start).span = ⟨start, start + byteLength f.chars⟩ := by
  cases f <;> rfl

/-- **The node of a form further on** is the same node with other spans. -/
theorem node_forward (f : Form) (k : Nat) :
    ∀ start, f.node (start + k) = (f.node start).mapSpans (Span.forward k) := by
  have hspan : ∀ start size : Nat, (⟨start + k, start + k + size⟩ : Span) =
      Span.forward k ⟨start, start + size⟩ := fun start size => by
    rw [Span.forward, Nat.add_right_comm]
  have hgap : ∀ start size : Nat, start + k + 1 + size = start + 1 + size + k := fun _ _ => by omega
  induction f using Form.induction with
  | literal l =>
    intro start
    rw [node, node, Node.mapSpans, hspan]
  | array gap items ih =>
    intro start
    rw [node_array, node_array, Node.mapSpans, Node.mapItemSpans_eq, hspan, hgap]
    rw [Entries.contents_add fun i hi offset => ih i hi offset]
  | object gap members ih =>
    intro start
    rw [node_object, node_object, Node.mapSpans, Node.mapMemberSpans_eq, hspan, hgap]
    rw [← Members.collapse_map (φ := fun m => (⟨m.1.name, m.1.span.forward k⟩, m.2.mapSpans _))
      fun _ => rfl]
    congr 2
    refine Entries.contents_add (fun m hm offset => ?_) _
    simp only [memberEntries, Span.forward, Nat.add_right_comm offset k, ih m hm]

/-! ### The forms of parts -/

/-- **Each part** of the node of a form is the node of a form that is written in it. -/
theorem exists_of_leads {n : Node} : ∀ {start : Nat} {as : List Accessor}, (f.node start).Leads as n →
    ∃ before g, f.Holds before g ∧ n = g.node (start + byteLength before) := by
  have hbracket : ∀ (c : Char) (cs : List Char), c.utf8Size = 1 →
      byteLength (c :: cs) = 1 + byteLength cs := fun c cs hc => by rw [byteLength_cons, hc]
  induction f using Form.induction with
  | literal l =>
    intro start as h
    rw [node] at h
    cases h
    exact ⟨[], .literal l, .refl _, rfl⟩
  | array gap items ih =>
    intro start as h
    rw [node_array] at h
    cases h with
    | here => exact ⟨[], .array gap items, .refl _, (node_array ..).symm⟩
    | item span hi hl =>
      obtain ⟨i, hmem, before, after, htexts, rfl⟩ :=
        Entries.exists_of_mem_contents _ (List.mem_of_getElem? hi)
      obtain ⟨between, g, hg, rfl⟩ := ih i hmem hl
      refine ⟨_, g, (holds_item hmem htexts).trans hg, ?_⟩
      simp only [List.cons_append, byteLength_append, hbracket '[' _ rfl, Nat.add_assoc]
  | object gap members ih =>
    intro start as h
    rw [node_object] at h
    cases h with
    | here => exact ⟨[], .object gap members, .refl _, (node_object ..).symm⟩
    | member span hm hl =>
      obtain ⟨m, hmem, before, after, htexts, he⟩ :=
        Entries.exists_of_mem_contents _ (Members.mem_of_mem_collapse hm)
      obtain ⟨rfl, rfl⟩ := Prod.mk.inj he
      obtain ⟨between, g, hg, rfl⟩ := ih m hmem hl
      refine ⟨_, g, (holds_member hmem htexts).trans hg, ?_⟩
      simp only [List.cons_append, byteLength_append, hbracket '\x7b' _ rfl, Nat.add_assoc]

/-- **Each key** in the node of a form is written in the form as a string literal. -/
theorem exists_of_key {start : Nat} {as : List Accessor} {span : Span} {members : List (Key × Node)}
    (h : (f.node start).Leads as (.object span members)) {m : Key × Node} (hm : m ∈ members) :
    ∃ before raw, f.Holds before (.literal (.string raw)) ∧ m.1.name = denoted raw ∧
      m.1.span = ((literal (.string raw)).node (start + byteLength before)).span := by
  obtain ⟨before, g, hg, hn⟩ := exists_of_leads h
  cases g with
  | literal l => cases hn
  | array gap items => cases hn
  | object gap members' =>
    rw [node_object] at hn
    cases hn
    obtain ⟨m', hmem, between, after, htexts, rfl⟩ :=
      Entries.exists_of_mem_contents _ (Members.mem_of_mem_collapse hm)
    refine ⟨_, m'.1.raw, hg.trans (holds_key hmem htexts), rfl, ?_⟩
    have hbracket : Char.utf8Size '\x7b' = 1 := rfl
    rw [span_node]
    simp only [memberEntries, byteLength_append, byteLength_cons, hbracket, Nat.add_assoc]
    rfl

end Form

end Written

/-! ### Slices -/

namespace Span

/-- The text in a span of a source. -/
def slice (s : Span) (source : String) : String := String.Pos.Raw.extract source ⟨s.start⟩ ⟨s.stop⟩

/-- The span starts and ends between two characters of the source, in front of its slice and behind it. -/
def Cuts (s : Span) (source : String) : Prop :=
  ∃ before after, source.toList = before ++ (s.slice source).toList ++ after ∧
    s = ⟨byteLength before, byteLength (before ++ (s.slice source).toList)⟩

theorem utf8Len_eq (cs : List Char) : String.utf8Len cs = byteLength cs := by
  induction cs with
  | nil => rfl
  | cons c cs ih => rw [String.utf8Len_cons, ih, byteLength_cons, Nat.add_comm]

theorem slice_eq {source : String} {before middle after : List Char}
    (h : source.toList = before ++ middle ++ after) :
    slice ⟨byteLength before, byteLength before + byteLength middle⟩ source = String.ofList middle := by
  have hs : source = String.ofList (before ++ middle ++ after) := by rw [← h, String.ofList_toList]
  rw [slice, hs, ← utf8Len_eq, ← utf8Len_eq]
  exact String.extract_of_valid before middle after

end Span

namespace Document

variable {source : String} {d : Document} {pad : Pad} {f g : Form} {before : List Char}

/-- **The slice of a part** of a form is the text of the part, and reads as its node at the front. -/
theorem Derivation.parse_slice (h : Derivation source pad f) (hg : f.Holds before g) {span : Span}
    (hs : span = (g.node (byteLength pad.before + byteLength before)).span) :
    span.slice source = String.ofList g.chars ∧ span.Cuts source ∧
      parse (span.slice source) = .ok ⟨span.slice source, g.node 0⟩ := by
  obtain ⟨after, hchars⟩ := hg.chars
  have hsource : source.toList = pad.before ++ before ++ g.chars ++ (after ++ pad.after) := by
    rw [h.derives.source_eq, Pad.around, hchars]
    simp only [List.append_assoc]
  have hspan : span = ⟨byteLength (pad.before ++ before),
      byteLength (pad.before ++ before) + byteLength g.chars⟩ := by
    rw [hs, Form.span_node, byteLength_append]
  have hslice : span.slice source = String.ofList g.chars := by rw [hspan, Span.slice_eq hsource]
  refine ⟨hslice, ⟨pad.before ++ before, after ++ pad.after, ?_, ?_⟩, ?_⟩
  · rw [hslice, String.toList_ofList]
    exact hsource
  · rw [hslice, String.toList_ofList, byteLength_append (pad.before ++ before)]
    exact hspan
  · rw [hslice]
    exact parse_chars (hg.grammatical h.derives.grammatical) (hg.accepted h.accepted)
      (Nat.le_trans hg.depth_le h.depth)

/-- **Slices of a document are documents.** The slice in the span of a node reads as a document whose root is
the node with all spans moved to the front, which loses nothing, and there are no blanks at its ends. The
slice in the span of a key reads as the string that the key is. -/
theorem slices_parse (h : parse source = .ok d) :
    (∀ as n, d.root.Leads as n →
      n.span.Cuts source ∧
      parse (n.span.slice source) =
        .ok ⟨n.span.slice source, n.mapSpans (Span.back n.span.start)⟩ ∧
      (n.mapSpans (Span.back n.span.start)).mapSpans (Span.forward n.span.start) = n ∧
      ∀ c, (n.span.slice source).toList.head? = some c ∨
        (n.span.slice source).toList.getLast? = some c → isBlank c = false) ∧
    ∀ as span members, d.root.Leads as (.object span members) → ∀ m ∈ members,
      m.1.span.Cuts source ∧
      parse (m.1.span.slice source) =
        .ok ⟨m.1.span.slice source, .scalar (m.1.span.back m.1.span.start) (.string m.1.name)⟩ := by
  obtain ⟨pad, f, hf, rfl⟩ := parse_eq_ok.mp h
  have hfront : ∀ (g : Form) (start : Nat),
      (g.node start).mapSpans (Span.back start) = g.node 0 := fun g start => by
    rw [← Nat.zero_add start, Form.node_forward, Nat.zero_add]
    exact Node.mapSpans_mapSpans (Span.back_forward start) _
  refine ⟨fun as n hl => ?_, fun as span members hl m hm => ?_⟩
  · obtain ⟨before, g, hg, rfl⟩ := Form.exists_of_leads hl
    obtain ⟨hslice, hcuts, hparse⟩ := hf.parse_slice hg rfl
    have hstart : (g.node (byteLength pad.before + byteLength before)).span.start =
        byteLength pad.before + byteLength before := by rw [Form.span_node]
    refine ⟨hcuts, ?_, ?_, fun c hc => ?_⟩
    · rw [hparse, hstart, hfront]
    · rw [hstart, hfront, ← Form.node_forward, Nat.zero_add]
    · have hgram := hg.grammatical hf.derives.grammatical
      rw [hslice, String.toList_ofList] at hc
      rcases hc with hc | hc
      · obtain ⟨c', cs, hchars, hstarts⟩ := head_chars hgram
        rw [hchars] at hc
        obtain rfl := Option.some.inj hc
        exact not_isBlank_of_startsValue hstarts
      · exact Form.last_chars hgram hc
  · obtain ⟨before, raw, hg, hname, hspan⟩ := Form.exists_of_key hl hm
    obtain ⟨-, hcuts, hparse⟩ := hf.parse_slice hg hspan
    refine ⟨hcuts, ?_⟩
    rw [hparse, hname, hspan, Form.span_node]
    simp [Form.node, Span.back, Literal.scalar, Form.chars]

/-- The array in a member, behind blanks and a character of two bytes. -/
theorem slices_parse_inner_array : ∃ d, parse " [\"é\", \x7b\"k\" : [ null ]\x7d]" = .ok d ∧
    parse (Span.slice ⟨15, 23⟩ " [\"é\", \x7b\"k\" : [ null ]\x7d]") =
      .ok ⟨Span.slice ⟨15, 23⟩ " [\"é\", \x7b\"k\" : [ null ]\x7d]",
        .array ⟨0, 8⟩ [.scalar ⟨2, 6⟩ .null]⟩ := by
  let item : Form := .array [' '] [(⟨[], [' ']⟩, .literal .null)]
  let member : Form := .object [] [(⟨⟨[], []⟩, ['k'], ⟨[' '], [' ']⟩⟩, item)]
  let f : Form := .array [] [(⟨[], []⟩, .literal (.string ['é'])), (⟨[' '], []⟩, member)]
  have hk : Contents ['k'] := ⟨_, .plain (by decide) (by decide) .nil⟩
  have hé : Contents ['é'] := ⟨_, .plain (by decide) (by decide) .nil⟩
  have hblank : isBlank ' ' = true := by decide
  have hg : f.Grammatical := by
    simp [f, member, item, Form.Grammatical, Form.Each, Form.EachMember, Form.EachItem, Blanks, hk, hé,
      hblank]
  have ha : f.Accepted := by
    have hmk : meaning ['k'] = .ok ['k'] := meaning_escaped ['k']
    have hmé : meaning ['é'] = .ok ['é'] := meaning_escaped ['é']
    simp [f, member, item, Form.Accepted, Form.Each, Form.EachMember, Form.EachItem, hmk, hmé]
  have hs : Derives " [\"é\", \x7b\"k\" : [ null ]\x7d]".toList ⟨[' '], []⟩ f :=
    ⟨rfl, by simp [Blanks, hblank], blanks_nil, hg⟩
  have hp := parse_eq_ok.mpr ⟨_, f, ⟨hs, by decide, ha⟩, rfl⟩
  have hl : (f.node 1).Leads [.index 1, .key (denoted ['k'])] (item.node 15) :=
    .item _ (n := member.node 8) rfl (.member _ (List.mem_singleton.mpr rfl) (.here _))
  exact ⟨_, hp, ((slices_parse hp).1 _ _ hl).2.1⟩

end Document

end JsonSelect
