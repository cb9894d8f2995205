import JsonSelect.Proofs.Session
import JsonSelect.Proofs.Tree.Scalars
import JsonSelect.Report

/-! # Paths and reports that are read back

A path is shown as the array of its segments, and a selection is reported as an object. Both are values, so
they read as documents if they are legible and do not nest too deep. Arrays of texts always are
(`Path.legible_value`), and a report is if the selected value is (`Selection.legible_report`). What is selected
comes from a document, where no object repeats a key and integers fit 64 bits, so it is legible if there is no
floating-point number in it (`Session.legible_selection`). The report nests two levels deeper. -/

namespace JsonSelect

open Written

/-! ### Paths -/

namespace Path

theorem legible_value (p : Path) : p.value.LegibleWithin 1 := by
  refine .array fun v hv => ?_
  obtain ⟨s, -, rfl⟩ := List.mem_map.mp hv
  exact .string s

theorem value_injective {p q : Path} (h : p.value = q.value) : p = q := by
  have hstring : Function.Injective Value.string := fun _ _ h => Scalar.string.inj (Value.scalar.inj h)
  exact hstring.list_map (Value.array.inj h)

/-- **A path that is shown** reads as a document, the array of its segments. So paths that are shown in the
same way are the same, whatever their segments contain. -/
theorem display_reads_back (p : Path) :
    (∃ d, Document.parse p.display = .ok d ∧ d.root.value = .array (p.map Value.string)) ∧
      ∀ q : Path, q.display = p.display → q = p := by
  have hread : ∀ p : Path, ∃ d, Document.parse p.display = .ok d ∧ d.root.value = p.value :=
    fun p => Document.parse_compact (p.legible_value.mono (by decide))
  refine ⟨hread p, fun q hq => ?_⟩
  obtain ⟨d, hd, hp⟩ := hread p
  obtain ⟨d', hd', hq'⟩ := hread q
  -- the same text is read twice, so it gives the same document
  obtain rfl : d = d' := Except.ok.inj (hd.symm.trans (hq ▸ hd'))
  exact value_injective (hq'.symm.trans hp)

end Path

/-! ### Reports -/

/-- The members of the object for an expression. -/
def Snippet.members (s : Snippet) : List (String × String) :=
  [("language", s.language.name), ("display_name", s.language.displayName), ("code", s.code)] ++
    s.language.note?.toList.map fun note => ("note", note)

theorem Snippet.toValue_eq (s : Snippet) :
    s.toValue = .object (s.members.map fun m => (m.1, .string m.2)) := by
  simp [toValue, members]

theorem Snippet.legible_toValue (s : Snippet) : s.toValue.LegibleWithin 1 := by
  rw [toValue_eq]
  refine .object ?_ fun m hm => ?_
  · cases h : s.language.note? <;> simp [members, h]
  · obtain ⟨m, -, rfl⟩ := List.mem_map.mp hm
    exact .string m.2

theorem Selection.legible_report {sel : Selection} {n : Nat} (hn : 1 ≤ n) (h : sel.value.LegibleWithin n)
    (snippets : List Snippet) : (sel.report snippets).LegibleWithin (n + 2) := by
  -- the path and the members of an expression nest one level deep, even beside a scalar
  have hselection : sel.toValue.LegibleWithin (n + 1) := by
    refine .object (by simp) ?_
    simp [h, sel.path.legible_value.mono hn, Value.LegibleWithin.string]
  have hsnippets : (Value.array (snippets.map Snippet.toValue)).LegibleWithin (n + 1) := by
    refine .array fun v hv => ?_
    obtain ⟨s, -, rfl⟩ := List.mem_map.mp hv
    exact s.legible_toValue.mono hn
  refine .object (by simp) ?_
  simp [hselection, hsnippets]

namespace Session

/-- **What is selected** after any events is legible, if there is no floating-point number in it. -/
theorem legible_selection (receiver : String) (language : Language) (es : List Event) {sel : Selection}
    (hsel : ((start receiver language).run es).selection = some sel)
    (hn : sel.value.EachScalar Scalar.NoFloat) : sel.value.Legible := by
  have hsound := sound_run (sound_start receiver language) es
  obtain ⟨d, hd, u, hu, rfl⟩ := hsound.selection sel hsel
  have hparse := hsound.loaded d hd
  obtain ⟨as, -, hleads⟩ := Node.leads_of_mem_units hu
  have hdistinct : u.node.Distinct := hleads.distinct (Document.distinct_of_parse hparse)
  have hfits : u.node.EachScalar Scalar.Fits := hleads.eachScalar (Document.fits_of_parse hparse)
  exact Node.legible_value hdistinct hfits hn

/-- **Reports read back.** The report of what is selected after any events, with any expressions, reads as a
document with the path, the value and the kind of the selection and with the members of each expression, as
long as the value nests at most 126 levels deep and there is no floating-point number in it. Blanks may stand
behind the report. -/
theorem report_reads_back (receiver : String) (language : Language) (es : List Event) {sel : Selection}
    (hsel : ((start receiver language).run es).selection = some sel) (hd : sel.value.depth ≤ 126)
    (hn : sel.value.EachScalar Scalar.NoFloat) (snippets : List Snippet) {ending : String}
    (he : Blanks ending.toList) :
    ∃ d, Document.parse ((sel.report snippets).pretty ++ ending) = .ok d ∧ d.root.value = .object
      [("selection", .object
        [("path", .array (sel.path.map Value.string)),
          ("value", sel.value),
          ("kind", .string sel.kind.name)]),
        ("snippets", .array (snippets.map fun s => .object
          ([("language", .string s.language.name),
            ("display_name", .string s.language.displayName),
            ("code", .string s.code)] ++ s.language.note?.toList.map fun n => ("note", .string n))))] := by
  have hvalue : sel.value.LegibleWithin 126 := ⟨legible_selection receiver language es hsel hn, hd⟩
  exact Document.parse_pretty (sel.legible_report (by decide) hvalue snippets) he

/-- An array in an array, with expressions in a language with a note and in one without. -/
theorem report_reads_back_item :
    let sel : Selection := ⟨["0"], .array [.scalar (.number (.integer 7))], .array⟩
    let snippets := [Language.java, .python].map (·.snippet "j" ["0"])
    ((start "j" .python).run [.edit "[[7]]", .select 1]).selection = some sel ∧
      ∃ d, Document.parse ((sel.report snippets).pretty ++ "\n") = .ok d := by
  intro sel snippets
  have hitem : sel.value.Legible := .array fun v hv => by
    rw [List.mem_singleton.mp hv]
    exact .scalar (fun _ h => by cases h) fun _ h => by cases h; decide
  have hsource : (Value.array [sel.value]).Legible := .array fun v hv => by
    rw [List.mem_singleton.mp hv]
    exact hitem
  let d : Document := ⟨"[[7]]", .array ⟨0, 5⟩ [.array ⟨1, 4⟩ [.scalar ⟨2, 3⟩ (.number (.integer 7))]]⟩
  have hp : Document.parse "[[7]]" = .ok d :=
    Document.parse_chars (hsource.grammatical .compact 0) (hsource.accepted .compact 0) (by decide)
  have hsel : ((start "j" .python).run [.edit "[[7]]", .select 1]).selection = some sel := by
    have hedit : Loaded.ofText "[[7]]" = .document d := by rw [Loaded.ofText, hp]
    rw [run, List.foldl_cons, advance, apply, hedit]
    rfl
  have hending : Blanks "\n".toList := List.forall_mem_singleton.mpr (by decide)
  obtain ⟨d', hd', -⟩ :=
    report_reads_back "j" .python _ hsel (by decide) hitem.noFloat snippets hending
  exact ⟨hsel, d', hd'⟩

end Session

end JsonSelect
