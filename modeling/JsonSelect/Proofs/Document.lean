import JsonSelect.Document
import JsonSelect.Proofs.Reading.Depth
import JsonSelect.Proofs.Written.Nodes

/-! # Documents that are read

A source reads as a document exactly when it derives from the grammar of forms, nests at most `maxDepth`
deep, and all its literals denote something (`parse_derives`). The root is then the node of the form where
it stands, so the document has the value of its form, whichever derivation of the source is taken. Any other
source has one error (`parse_eq_error`). -/

namespace JsonSelect.Document

open Reading Rule Written

/-- A derivation of a source that reads as a document. -/
structure Derivation (source : String) (pad : Pad) (f : Form) : Prop where
  derives : Derives source.toList pad f
  depth : f.depth ≤ maxDepth
  accepted : f.Accepted

theorem reads_documentWithin {n : Nat} {k k' : Cursor} {root : Node} :
    (documentWithin n).Reads k root k' ↔ (valueWithin n).Reads k root k' ∧ k'.ahead = [] := by
  simp only [documentWithin, reads_labelled, reads_bind, reads_endOfInput, reads_pure]
  constructor
  · rintro ⟨_, k₁, h, _, _, ⟨he, rfl⟩, rfl, rfl⟩
    exact ⟨h, he⟩
  · rintro ⟨h, he⟩
    exact ⟨root, k', h, (), k', ⟨he, rfl⟩, rfl, rfl⟩

theorem root?_eq_some {source : String} {root : Node} : root? source = some root ↔
    ∃ k', (valueWithin levels).Reads (Cursor.start source.toList) root k' ∧ k'.ahead = [] := by
  unfold root? reading
  rw [Option.map_eq_some_iff]
  constructor
  · rintro ⟨⟨root, k'⟩, h, rfl⟩
    exact ⟨k', reads_documentWithin.mp h⟩
  · rintro ⟨k', h⟩
    exact ⟨(root, k'), reads_documentWithin.mpr h, rfl⟩

theorem derives_of_passes {source : List Char} {pad : Pad} {f : Form} {k' : Cursor}
    (hb : Blanks pad.before ∧ Blanks pad.after) (hg : f.Grammatical)
    (h : (Cursor.start source).Passes (pad.around f.chars) k') (he : k'.ahead = []) :
    Derives source pad f := by
  refine ⟨?_, hb.1, hb.2, hg⟩
  have := h.ahead
  rwa [he, List.append_nil] at this

theorem derivation_of_root {source : String} {root : Node} (hd : tooDeepAt? source.toList = none)
    (h : root? source = some root) :
    ∃ pad f, Derivation source pad f ∧ root = f.node (byteLength pad.before) := by
  obtain ⟨k', hr, he⟩ := root?_eq_some.mp h
  obtain ⟨pad, f, hb, hf, hp, -, rfl⟩ := (reads_valueWithin levels).sound hr
  have hs := derives_of_passes hb (grammatical_of_readable hf) hp he
  refine ⟨pad, f, ⟨hs, (tooDeepAt_eq_none hs).mp hd, accepted_of_readable hf⟩, ?_⟩
  simp only [Cursor.start, Nat.zero_add]

theorem root_of_derivation {source : String} {pad : Pad} {f : Form} (h : Derivation source pad f) :
    root? source = some (f.node (byteLength pad.before)) := by
  obtain ⟨⟨hs, hb, ha, hg⟩, hd, hacc⟩ := h
  have hr := (reads_valueWithin levels).complete ⟨hb, ha⟩ (readable_of_depth hg hacc hd)
    (Cursor.passes_start _) (fun c hc => by cases hc)
  refine root?_eq_some.mpr ⟨⟨[], byteLength (pad.around f.chars)⟩, ?_, rfl⟩
  rw [hs]
  simpa only [Cursor.start, Nat.zero_add] using hr

section
variable {source : String} {d : Document} {errors : List ParseError} {offset : Nat} {root : Node}

theorem outcome_of_root (h : root? source = some root) : outcome source = (some root, []) := by
  unfold outcome
  rw [h]

theorem outcome_of_none (h : root? source = none) : outcome source = (none, [failure source]) := by
  unfold outcome
  rw [h]

theorem parse_of_tooDeep (h : tooDeepAt? source.toList = some offset) :
    parse source = .error [.tooDeep offset] := by
  unfold parse
  rw [h]

theorem parse_of_root (hd : tooDeepAt? source.toList = none) (h : root? source = some root) :
    parse source = .ok ⟨source, root⟩ := by
  unfold parse
  rw [hd, outcome_of_root h]
  rfl

theorem parse_of_none (hd : tooDeepAt? source.toList = none) (h : root? source = none) :
    parse source = .error [.ofFailure (failure source)] := by
  unfold parse
  rw [hd, outcome_of_none h]
  rfl

/-- **A document** is the node of a derivation of its source. -/
theorem parse_eq_ok : parse source = .ok d ↔
    ∃ pad f, Derivation source pad f ∧ d = ⟨source, f.node (byteLength pad.before)⟩ := by
  constructor
  · intro h
    cases hd : tooDeepAt? source.toList with
    | some offset =>
      rw [parse_of_tooDeep hd] at h
      cases h
    | none =>
      cases hr : root? source with
      | some root =>
        rw [parse_of_root hd hr] at h
        obtain rfl := Except.ok.inj h
        obtain ⟨pad, f, hf, rfl⟩ := derivation_of_root hd hr
        exact ⟨pad, f, hf, rfl⟩
      | none =>
        rw [parse_of_none hd hr] at h
        cases h
  · rintro ⟨pad, f, hf, rfl⟩
    exact parse_of_root ((tooDeepAt_eq_none hf.derives).mpr hf.depth) (root_of_derivation hf)

/-- **A source that is no document** has one error: that of the bracket that goes too deep, or that of the
failure that is reported. -/
theorem parse_eq_error : parse source = .error errors ↔
    (∃ offset, tooDeepAt? source.toList = some offset ∧ errors = [.tooDeep offset]) ∨
      tooDeepAt? source.toList = none ∧ root? source = none ∧ errors = [.ofFailure (failure source)] := by
  constructor
  · intro h
    cases hd : tooDeepAt? source.toList with
    | some offset =>
      rw [parse_of_tooDeep hd] at h
      exact .inl ⟨offset, rfl, (Except.error.inj h).symm⟩
    | none =>
      cases hr : root? source with
      | some root =>
        rw [parse_of_root hd hr] at h
        cases h
      | none =>
        rw [parse_of_none hd hr] at h
        exact .inr ⟨rfl, rfl, (Except.error.inj h).symm⟩
  · rintro (⟨offset, hd, rfl⟩ | ⟨hd, hr, rfl⟩)
    · exact parse_of_tooDeep hd
    · exact parse_of_none hd hr

end

/-- The root of a document is the node of each derivation of its source. -/
theorem root_eq_of_parse {source : String} {d : Document} {pad : Pad} {f : Form}
    (h : parse source = .ok d) (hf : Derivation source pad f) :
    d.root = f.node (byteLength pad.before) := by
  have h' := parse_eq_ok.mpr ⟨pad, f, hf, rfl⟩
  rw [Except.ok.inj (h.symm.trans h')]

/-- The text of a form derives from the form, with nothing around it. -/
theorem derivation_chars {f : Form} (hg : f.Grammatical) (ha : f.Accepted) (hd : f.depth ≤ maxDepth) :
    Derivation (String.ofList f.chars) ⟨[], []⟩ f := by
  refine ⟨⟨?_, blanks_nil, blanks_nil, hg⟩, hd, ha⟩
  rw [String.toList_ofList, Pad.around, List.nil_append, List.append_nil]

theorem parse_chars {f : Form} (hg : f.Grammatical) (ha : f.Accepted) (hd : f.depth ≤ maxDepth) :
    parse (String.ofList f.chars) = .ok ⟨String.ofList f.chars, f.node 0⟩ :=
  parse_eq_ok.mpr ⟨_, f, derivation_chars hg ha hd, rfl⟩

theorem tooDeepAt_of_parse {source : String} {d : Document} (h : parse source = .ok d) :
    tooDeepAt? source.toList = none := by
  obtain ⟨pad, f, hf, -⟩ := parse_eq_ok.mp h
  exact (tooDeepAt_eq_none hf.derives).mpr hf.depth

theorem distinct_of_parse {source : String} {d : Document} (h : parse source = .ok d) :
    d.root.Distinct := by
  obtain ⟨pad, f, -, rfl⟩ := parse_eq_ok.mp h
  exact f.distinct_node _

/-- **The sources that read as documents** are those with a derivation, and the value of a document is
the value of each derivation of its source. -/
theorem parse_derives (source : String) :
    ((∃ d, parse source = .ok d) ↔
        ∃ pad f, Derives source.toList pad f ∧ f.depth ≤ maxDepth ∧ f.Accepted) ∧
      ∀ d pad f, parse source = .ok d → Derives source.toList pad f → f.Accepted →
        d.root.value = f.value := by
  refine ⟨⟨?_, ?_⟩, ?_⟩
  · rintro ⟨d, h⟩
    obtain ⟨pad, f, ⟨hs, hd, ha⟩, -⟩ := parse_eq_ok.mp h
    exact ⟨pad, f, hs, hd, ha⟩
  · rintro ⟨pad, f, hs, hd, ha⟩
    exact ⟨_, parse_eq_ok.mpr ⟨pad, f, ⟨hs, hd, ha⟩, rfl⟩⟩
  · intro d pad f h hs ha
    have hd := (tooDeepAt_eq_none hs).mp (tooDeepAt_of_parse h)
    rw [root_eq_of_parse h ⟨hs, hd, ha⟩]
    exact f.value_node _

end JsonSelect.Document
