import JsonSelect.Proofs.Document
import JsonSelect.Proofs.Tree.Paths
import JsonSelect.Session

/-! # What sessions show

Whatever events a session went through, what is selected and hovered in it belongs to the document that it
has loaded. An event that applies does one of five things to a session (`apply_cases`), each of them keeps
the session `Sound` (`sound_of_apply`), and an event that does not apply changes nothing; so every session
that is reached from the start is sound (`sound_run`). -/

namespace JsonSelect.Session

variable {s s' : Session}

/-! ### What an event does -/

theorem document_eq_ok {d : Document} : s.document = .ok d ↔ s.loaded = .document d := by
  unfold document document? Loaded.document?
  cases s.loaded <;> simp

theorem elim_eq_ok {ε α : Type} {o : Option α} {e : ε} {a : α} :
    o.elim (.error e) .ok = (.ok a : Except ε α) ↔ o = some a := by
  cases o <;> simp

theorem mem_of_unit {id : Nat} {u : TreeUnit} (h : s.unit id = .ok u) :
    ∃ d, s.loaded = .document d ∧ u ∈ d.root.tree.units := by
  obtain ⟨d, hd, hu⟩ := bind_eq_ok.mp h
  exact ⟨d, document_eq_ok.mp hd, List.mem_of_getElem? (elim_eq_ok.mp hu)⟩

theorem mem_of_unitAt {l : Location} {u : TreeUnit} (h : s.unitAt l = .ok u) :
    ∃ d, s.loaded = .document d ∧ u ∈ d.root.tree.units := by
  obtain ⟨d, hd, h'⟩ := bind_eq_ok.mp h
  obtain ⟨offset, -, hu⟩ := bind_eq_ok.mp h'
  exact ⟨d, document_eq_ok.mp hd, List.mem_of_find?_eq_some (elim_eq_ok.mp hu)⟩

/-- What an event does that applies: it loads a text, selects or hovers a unit of the document, ends the
hovering, or changes the language. -/
theorem apply_cases {e : Event} (h : s.apply e = .ok s') :
    (∃ source, s' = { s with loaded := .ofText source, selection := none, hover := none }) ∨
    (∃ d u, s.loaded = .document d ∧ u ∈ d.root.tree.units ∧
      s' = { s with selection := some u.select }) ∨
    (∃ d u, s.loaded = .document d ∧ u ∈ d.root.tree.units ∧ s' = { s with hover := some u.path }) ∨
    s' = { s with hover := none } ∨
    ∃ l, s' = { s with language := l } := by
  cases e with
  | edit source => exact .inl ⟨source, (Except.ok.inj h).symm⟩
  | select id =>
    obtain ⟨u, hu, he⟩ := bind_eq_ok.mp h
    obtain ⟨d, hd, hm⟩ := mem_of_unit hu
    exact .inr (.inl ⟨d, u, hd, hm, (Except.ok.inj he).symm⟩)
  | selectAt l =>
    obtain ⟨u, hu, he⟩ := bind_eq_ok.mp h
    obtain ⟨d, hd, hm⟩ := mem_of_unitAt hu
    exact .inr (.inl ⟨d, u, hd, hm, (Except.ok.inj he).symm⟩)
  | hover id =>
    cases id with
    | none => exact .inr (.inr (.inr (.inl (Except.ok.inj h).symm)))
    | some id =>
      obtain ⟨u, hu, he⟩ := bind_eq_ok.mp h
      obtain ⟨d, hd, hm⟩ := mem_of_unit hu
      exact .inr (.inr (.inl ⟨d, u, hd, hm, (Except.ok.inj he).symm⟩))
  | language l => exact .inr (.inr (.inr (.inr ⟨l, (Except.ok.inj h).symm⟩)))

/-! ### Sound sessions -/

/-- The document is read from its source, and what is selected and hovered are units of it. -/
structure Sound (s : Session) : Prop where
  loaded : ∀ d, s.loaded = .document d → Document.parse d.source = .ok d
  selection : ∀ sel, s.selection = some sel →
    ∃ d, s.loaded = .document d ∧ ∃ u ∈ d.root.tree.units, sel = u.select
  hover : ∀ p, s.hover = some p →
    ∃ d, s.loaded = .document d ∧ ∃ u ∈ d.root.tree.units, p = u.path

theorem parse_of_ofText {source : String} {d : Document} (h : Loaded.ofText source = .document d) :
    Document.parse d.source = .ok d := by
  unfold Loaded.ofText at h
  cases hp : Document.parse source with
  | error e => simp [hp] at h
  | ok d' =>
    obtain rfl : d' = d := by simpa [hp] using h
    obtain ⟨pad, f, -, rfl⟩ := Document.parse_eq_ok.mp hp
    exact hp

theorem sound_start (receiver : String) (language : Language) : (start receiver language).Sound where
  loaded _ h := by cases h
  selection _ h := by cases h
  hover _ h := by cases h

/-- **One event** keeps a session sound. -/
theorem sound_of_apply {e : Event} (hs : s.Sound) (h : s.apply e = .ok s') : s'.Sound := by
  rcases apply_cases h with ⟨source, rfl⟩ | ⟨d, u, hd, hu, rfl⟩ | ⟨d, u, hd, hu, rfl⟩ | rfl | ⟨l, rfl⟩
  · refine ⟨fun d hd => parse_of_ofText hd, fun sel hsel => ?_, fun p hp => ?_⟩
    · cases hsel
    · cases hp
  · refine ⟨hs.loaded, fun sel hsel => ?_, hs.hover⟩
    cases hsel
    exact ⟨d, hd, u, hu, rfl⟩
  · refine ⟨hs.loaded, hs.selection, fun p hp => ?_⟩
    cases hp
    exact ⟨d, hd, u, hu, rfl⟩
  · refine ⟨hs.loaded, hs.selection, fun p hp => ?_⟩
    cases hp
  · exact ⟨hs.loaded, hs.selection, hs.hover⟩

theorem sound_advance (hs : s.Sound) (e : Event) : (s.advance e).Sound := by
  unfold advance
  split
  · next h => exact sound_of_apply hs h
  · exact hs

/-- **Every run** keeps a session sound. -/
theorem sound_run (hs : s.Sound) (es : List Event) : (s.run es).Sound := by
  unfold run
  induction es generalizing s with
  | nil => exact hs
  | cons e es ih => exact ih (sound_advance hs e)

/-- **Sessions show their document.** Where something is selected or hovered a document is loaded; the
selection is that of one of its units, and its path leads to a node of that value and kind; and the path
that is hovered leads to a node. -/
theorem run_shows_document (receiver : String) (language : Language) (es : List Event) :
    let s := (start receiver language).run es
    (s.selection.isSome ∨ s.hover.isSome → ∃ d, s.loaded = .document d ∧
      Document.parse d.source = .ok d) ∧
    (∀ sel, s.selection = some sel → ∃ d, s.loaded = .document d ∧
      (∃ u ∈ d.root.tree.units, sel = u.select) ∧
        ∃ n, d.root.at? sel.path = some n ∧ n.value = sel.value ∧ n.kind = sel.kind) ∧
    ∀ p, s.hover = some p → ∃ d, s.loaded = .document d ∧ ∃ n, d.root.at? p = some n := by
  intro s
  have hs : s.Sound := sound_run (sound_start receiver language) es
  have hway : ∀ {d : Document} {u : TreeUnit}, s.loaded = .document d → u ∈ d.root.tree.units →
      d.root.at? u.path = some u.node := fun hd hu =>
    Node.at?_path_of_mem_units (Document.distinct_of_parse (hs.loaded _ hd)) hu
  refine ⟨?_, fun sel hsel => ?_, fun p hp => ?_⟩
  · rintro (h | h)
    · obtain ⟨sel, hsel⟩ := Option.isSome_iff_exists.mp h
      obtain ⟨d, hd, -⟩ := hs.selection sel hsel
      exact ⟨d, hd, hs.loaded d hd⟩
    · obtain ⟨p, hp⟩ := Option.isSome_iff_exists.mp h
      obtain ⟨d, hd, -⟩ := hs.hover p hp
      exact ⟨d, hd, hs.loaded d hd⟩
  · obtain ⟨d, hd, u, hu, rfl⟩ := hs.selection sel hsel
    exact ⟨d, hd, ⟨u, hu, rfl⟩, u.node, hway hd hu, rfl, rfl⟩
  · obtain ⟨d, hd, u, hu, rfl⟩ := hs.hover p hp
    exact ⟨d, hd, u.node, hway hd hu⟩

end JsonSelect.Session
