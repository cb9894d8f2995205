import JsonSelect.Proofs.Runs
import JsonSelect.Proofs.Selecting
import JsonSelect.Proofs.Written.Returns

/-! # Line breaks with carriage returns

A document may end its lines in line feeds, or in a carriage return and a line feed each. Where the source
has no other carriage returns, this changes the spans of nodes and units only (`Document.parse_withReturns`):
a location stands for the byte where the byte that it stood for moved to (`Document.offsetOf?_withReturns`),
and the unit there is the one that was there (`Node.unitAt?_moved`). So a location selects what it selected,
or fails as it failed (`returns_change_spans_only`). -/

namespace JsonSelect

open Reading Written Text

/-! ### Units with other spans -/

/-- A unit with its span, and the spans in its node, changed by `g`. -/
def TreeUnit.mapSpans (g : Span → Span) (u : TreeUnit) : TreeUnit :=
  { u with span := g u.span, node := u.node.mapSpans g }

/-- The unit without the places of itself and of its node. -/
def TreeUnit.unplaced (u : TreeUnit) : TreeUnit := u.mapSpans fun _ => ⟨0, 0⟩

namespace Node

variable {g : Span → Span} {n : Node}

theorem value_mapSpans (g : Span → Span) (n : Node) : (n.mapSpans g).value = n.value := by
  induction n using Node.induction with
  | scalar span s => rfl
  | array span items ih =>
    rw [mapSpans, value, value, itemValues_eq_map, itemValues_eq_map, mapItemSpans_eq, List.map_map]
    exact congrArg Value.array (List.map_congr_left ih)
  | object span members ih =>
    rw [mapSpans, value, value, memberValues_eq_map, memberValues_eq_map, mapMemberSpans_eq, List.map_map]
    refine congrArg Value.object (List.map_congr_left fun m hm => ?_)
    rw [Function.comp_apply, ih m hm]

theorem kind_mapSpans (g : Span → Span) (n : Node) : (n.mapSpans g).kind = n.kind := by
  rw [← kind_value, value_mapSpans, kind_value]

/-- The first and the last byte of the span go to those of the changed span. -/
structure KeepsEnds (g : Span → Span) (span : Span) : Prop where
  opening : openingSpan (g span) = g (openingSpan span)
  closing : closingSpan (g span) = g (closingSpan span)

/-- The brackets of the containers in the node stay at their ends. -/
def KeepsBrackets (g : Span → Span) (n : Node) : Prop :=
  ∀ as m, n.Leads as m → (∀ span s, m ≠ .scalar span s) → KeepsEnds g m.span

theorem KeepsBrackets.item {span : Span} {items : List Node} (h : (array span items).KeepsBrackets g) :
    ∀ n ∈ items, n.KeepsBrackets g := by
  intro n hn as m hl
  obtain ⟨i, hi⟩ := List.mem_iff_getElem?.mp hn
  exact h _ _ (.item _ hi hl)

theorem KeepsBrackets.member {span : Span} {members : List (Key × Node)}
    (h : (object span members).KeepsBrackets g) : ∀ m ∈ members, m.2.KeepsBrackets g :=
  fun _ hm _ _ hl => h _ _ (.member _ hm hl)

theorem itemUnits_mapSpans {ns : List Node}
    (h : ∀ n ∈ ns, ∀ p, (n.mapSpans g).units p = (n.units p).map (TreeUnit.mapSpans g)) (p : Path) (index : Nat) :
    itemUnits p index (ns.map (mapSpans g)) = (itemUnits p index ns).map (TreeUnit.mapSpans g) := by
  induction ns generalizing index with
  | nil => rfl
  | cons n ns ih =>
    obtain ⟨hn, hns⟩ := List.forall_mem_cons.mp h
    rw [List.map_cons, itemUnits, itemUnits, hn, ih hns, List.map_append]

theorem memberUnits_mapSpans {ms : List (Key × Node)}
    (h : ∀ m ∈ ms, ∀ p, (m.2.mapSpans g).units p = (m.2.units p).map (TreeUnit.mapSpans g)) (p : Path) :
    memberUnits p (ms.map fun m => (⟨m.1.name, g m.1.span⟩, m.2.mapSpans g)) =
      (memberUnits p ms).map (TreeUnit.mapSpans g) := by
  induction ms with
  | nil => rfl
  | cons m ms ih =>
    obtain ⟨hm, hms⟩ := List.forall_mem_cons.mp h
    rw [List.map_cons, memberUnits, memberUnits, hm, ih hms, List.map_cons, List.map_append]
    rfl

/-- **The units of a node with other spans** are its units with other spans. -/
theorem units_mapSpans (h : n.KeepsBrackets g) :
    ∀ p, (n.mapSpans g).units p = (n.units p).map (TreeUnit.mapSpans g) := by
  induction n using Node.induction with
  | scalar span s => exact fun _ => rfl
  | array span items ih =>
    intro p
    obtain ⟨hopen, hclose⟩ : KeepsEnds g span := h [] _ (.here _) fun _ _ hs => by cases hs
    have hitems := itemUnits_mapSpans (fun n hn => ih n hn (h.item n hn)) p 0
    rw [mapSpans, units, units, mapItemSpans_eq, hitems, List.map_cons, List.map_append, List.map_singleton]
    simp only [TreeUnit.mapSpans, mapSpans, mapItemSpans_eq, hopen, hclose]
  | object span members ih =>
    intro p
    obtain ⟨hopen, hclose⟩ : KeepsEnds g span := h [] _ (.here _) fun _ _ hs => by cases hs
    have hmembers := memberUnits_mapSpans (fun m hm => ih m hm (h.member m hm)) p
    rw [mapSpans, units, units, mapMemberSpans_eq, hmembers, List.map_cons, List.map_append, List.map_singleton]
    simp only [TreeUnit.mapSpans, mapSpans, mapMemberSpans_eq, hopen, hclose]

end Node

theorem TreeUnit.select_mapSpans (g : Span → Span) (u : TreeUnit) : (u.mapSpans g).select = u.select := by
  unfold select mapSpans
  rw [Node.value_mapSpans, Node.kind_mapSpans]

theorem TreeUnit.unplaced_mapSpans (g : Span → Span) (u : TreeUnit) : (u.mapSpans g).unplaced = u.unplaced := by
  unfold unplaced mapSpans
  rw [Node.mapSpans_comp]
  rfl

/-! ### Units where their bytes moved to -/

theorem Span.covers_moved (cs : List Char) (s : Span) (offset : Nat) :
    (s.moved cs).covers (Text.moved cs offset) = s.covers offset := by
  have hmono := strictMono_moved cs
  simp only [covers, moved, hmono.le_iff_le, hmono.lt_iff_lt]

/-- The unit at the place where a byte moved to is the unit at the byte. -/
theorem Node.unitAt?_moved {n : Node} {cs : List Char} (h : n.KeepsBrackets (Span.moved cs)) (offset : Nat) :
    (n.mapSpans (Span.moved cs)).tree.unitAt? (Text.moved cs offset) =
      (n.tree.unitAt? offset).map (TreeUnit.mapSpans (Span.moved cs)) := by
  have hunits : (n.mapSpans (Span.moved cs)).tree.units =
      n.tree.units.map (TreeUnit.mapSpans (Span.moved cs)) := units_mapSpans h []
  have hcovers : (fun u : TreeUnit => u.span.covers (Text.moved cs offset)) ∘ TreeUnit.mapSpans (Span.moved cs) =
      fun u : TreeUnit => u.span.covers offset := by
    funext u
    exact Span.covers_moved cs u.span offset
  rw [Tree.unitAt?, Tree.unitAt?, hunits, List.find?_map, hcovers]

/-- A text that starts and ends with a character of one byte, which is no line feed. -/
theorem Node.keepsEnds_moved {l r : Char} {source left cs right : List Char} (hl : l ≠ '\n')
    (hlsize : l.utf8Size = 1) (hr : r ≠ '\n') (hrsize : r.utf8Size = 1)
    (hs : source = left ++ l :: (cs ++ [r]) ++ right) : KeepsEnds (Span.moved source)
      ⟨byteLength left, byteLength left + byteLength (l :: (cs ++ [r]))⟩ := by
  -- both brackets are the character behind some front of the source
  have hopen : source = left ++ l :: (cs ++ r :: right) := by
    rw [hs]
    simp only [List.append_assoc, List.cons_append, List.nil_append]
  have hclose : source = left ++ l :: cs ++ r :: right := by
    rw [hs]
    simp only [List.append_assoc, List.cons_append, List.nil_append]
  have hfirst := moved_succ hl hlsize left (cs ++ r :: right)
  have hlast := moved_succ hr hrsize (left ++ l :: cs) right
  rw [← hopen] at hfirst
  rw [← hclose] at hlast
  have hstop : byteLength left + byteLength (l :: (cs ++ [r])) = byteLength (left ++ l :: cs) + 1 := by
    simp only [byteLength_append, byteLength_cons, byteLength_nil, hrsize]
    omega
  constructor
  · rw [openingSpan, openingSpan, Span.moved, Span.moved, hfirst]
  · rw [closingSpan, closingSpan, Span.moved, Span.moved, hstop, hlast, Nat.add_sub_cancel, Nat.add_sub_cancel]

/-- Containers start and end with a bracket, which is one byte. -/
theorem Written.Form.keepsBrackets {f : Form} {source before after : List Char}
    (hs : source = before ++ f.chars ++ after) :
    (f.node (byteLength before)).KeepsBrackets (Span.moved source) := by
  intro as m hl hm
  obtain ⟨inner, part, hpart, rfl⟩ := exists_of_leads hl
  obtain ⟨rest, hchars⟩ := hpart.chars
  have hsource : source = before ++ inner ++ part.chars ++ (rest ++ after) := by
    rw [hs, hchars]
    simp only [List.append_assoc]
  rw [← byteLength_append, span_node]
  cases part with
  | literal l => exact absurd rfl (hm _ _)
  | array gap items => exact Node.keepsEnds_moved (by decide) rfl (by decide) rfl hsource
  | object gap members => exact Node.keepsEnds_moved (by decide) rfl (by decide) rfl hsource

/-! ### Documents -/

namespace Document

variable {source : String} {d : Document}

theorem Derivation.withReturns {pad : Pad} {f : Form} (h : Derivation source pad f) :
    Derivation (String.ofList (withReturns source.toList)) (pad.mapBlanks withReturns)
      (f.mapBlanks withReturns) := by
  obtain ⟨⟨hs, hb, ha, hg⟩, hd, hacc⟩ := h
  have hchars := Form.chars_mapBlanks (Form.printableTokens hg hacc)
  refine ⟨⟨?_, blanks_withReturns hb, blanks_withReturns ha, hg.mapBlanks fun _ => blanks_withReturns⟩, ?_,
    hacc.mapBlanks⟩
  · rw [String.toList_ofList, hs, Pad.around, Pad.around, hchars, withReturns_append, withReturns_append]
    rfl
  · rw [Form.depth_mapBlanks]
    exact hd

/-- **A document with returns** has the root of the document, with each span where its bytes moved to. -/
theorem parse_withReturns (h : parse source = .ok d) :
    parse (String.ofList (withReturns source.toList)) =
        .ok ⟨String.ofList (withReturns source.toList), d.root.mapSpans (Span.moved source.toList)⟩ ∧
      d.root.KeepsBrackets (Span.moved source.toList) := by
  obtain ⟨pad, f, hf, rfl⟩ := parse_eq_ok.mp h
  have hs : source.toList = pad.before ++ f.chars ++ pad.after := hf.derives.source_eq
  have hprint := Form.printableTokens hf.derives.grammatical hf.accepted
  have hnode := Form.node_mapBlanks hprint hs
  refine ⟨?_, Form.keepsBrackets hs⟩
  rw [← hnode]
  exact parse_eq_ok.mpr ⟨_, _, hf.withReturns, rfl⟩

/-- **Offsets of locations** move with the bytes that stand there. -/
theorem offsetOf?_withReturns (hr : '\r' ∉ d.source.toList) (root : Node) (l : Location) :
    offsetOf? ⟨String.ofList (withReturns d.source.toList), root⟩ l =
      (d.offsetOf? l).map (Text.moved d.source.toList) := by
  refine Option.ext fun offset => ?_
  rw [offsetOf?_eq_some, String.toList_ofList, liesAt_withReturns hr, Option.map_eq_some_iff]
  exact exists_congr fun o => and_congr_left fun _ => offsetOf?_eq_some.symm

end Document

/-! ### Sessions -/

/-- **Carriage returns in front of the line feeds** of a source that has none change spans only. The source
with returns reads as a document with the same value, and with the same units but for their spans. Wherever
a location is selected in a session that has loaded it, the selection is the one that the source without
returns gives, or the error is. -/
theorem returns_change_spans_only {source : String} {d : Document} (hr : '\r' ∉ source.toList)
    (h : Document.parse source = .ok d) :
    ∃ d', Document.parse (String.ofList (withReturns source.toList)) = .ok d' ∧
      d'.root.value = d.root.value ∧
      d'.root.tree.units.map TreeUnit.unplaced = d.root.tree.units.map TreeUnit.unplaced ∧
      ∀ (s : Session) (l : Location),
        ((s.advance (.edit (String.ofList (withReturns source.toList)))).apply (.selectAt l)).map
            Session.selection =
          ((s.advance (.edit source)).apply (.selectAt l)).map Session.selection := by
  obtain ⟨hp, hk⟩ := Document.parse_withReturns h
  have hsource : d.source = source := by
    obtain ⟨pad, f, -, rfl⟩ := Document.parse_eq_ok.mp h
    rfl
  refine ⟨_, hp, Node.value_mapSpans _ _, ?_, fun s l => ?_⟩
  · rw [Node.tree, Node.treeAt, Node.units_mapSpans hk, List.map_map]
    exact List.map_congr_left fun u _ => u.unplaced_mapSpans _
  · have hoffset := Document.offsetOf?_withReturns (d := d) (hsource ▸ hr)
      (d.root.mapSpans (Span.moved source.toList)) l
    rw [hsource] at hoffset
    rw [Session.selectAt_eq (Session.loaded_edit hp s), Session.selectAt_eq (Session.loaded_edit h s), hoffset]
    cases d.offsetOf? l with
    | none => simp only [Option.map_none, Option.elim_none, Except.map]
    | some offset =>
      simp only [Option.map_some, Option.elim_some, Node.unitAt?_moved hk]
      cases d.root.tree.unitAt? offset with
      | none => simp only [Option.map_none, Option.elim_none, Except.map]
      | some u => simp only [Option.map_some, Option.elim_some, Except.map, u.select_mapSpans]

/-- The bracket on the second line. -/
theorem returns_change_spans_only_empty_array :
    let opened : Session := (Session.start "data" .python).advance (.edit "[\r\n]")
    (∃ d, Document.parse "[\r\n]" = .ok d ∧ d.root.value = .array []) ∧
      (opened.apply (.selectAt ⟨2, 1⟩)).map Session.selection = .ok (some ⟨[], .array [], .array⟩) := by
  intro opened
  have hparse : Document.parse "[\n]" = .ok ⟨"[\n]", .array ⟨0, 3⟩ []⟩ := by rfl
  obtain ⟨d', hparse', hvalue, -, hselect⟩ := returns_change_spans_only (by decide) hparse
  exact ⟨⟨d', hparse', hvalue⟩, (hselect _ ⟨2, 1⟩).trans (by rfl)⟩

end JsonSelect
