import JsonSelect.Proofs.Reading.Numbers
import JsonSelect.Proofs.Text.Decoding
import JsonSelect.Proofs.Written.Layout

/-! # The characters of tokens

No token of an accepted form holds a control character: a string literal with one denotes nothing, and the
other tokens consist of a few printable characters. So tokens stand on one line each
(`printable_of_mem_layout`). -/

namespace JsonSelect

open Text Reading

/-- No character of the text is below U+0020. -/
def Printable (cs : List Char) : Prop := ∀ c ∈ cs, 0x20 ≤ c.toNat

theorem Printable.append {cs ds : List Char} (h : Printable cs) (h' : Printable ds) :
    Printable (cs ++ ds) := by
  intro c hc
  rcases List.mem_append.mp hc with hc | hc
  · exact h c hc
  · exact h' c hc

theorem Printable.notMem {cs : List Char} (h : Printable cs) {c : Char} (hc : c.toNat < 0x20) : c ∉ cs :=
  fun hm => absurd (h c hm) (Nat.not_le_of_lt hc)

/-- A text in which each character was tried. -/
theorem printable_of_all {cs : List Char} (h : cs.all (0x20 ≤ ·.toNat) = true) : Printable cs :=
  fun c hc => by simpa using List.all_eq_true.mp h c hc

/-! ### String literals -/

theorem Printable.cons {c : Char} {cs : List Char} (hc : 0x20 ≤ c.toNat) (h : Printable cs) :
    Printable (c :: cs) :=
  List.forall_mem_cons.mpr ⟨hc, h⟩

theorem printable_of_spells {ps : List Piece} {raw : List Char} (h : Spells ps raw)
    (hp : ∀ c, .plain c ∈ ps → 0x20 ≤ c.toNat) : Printable raw := by
  have hb : 0x20 ≤ ('\\' : Char).toNat := by decide
  have hshort : ∀ c, isShortEscape c = true → 0x20 ≤ c.toNat := fun c hc => by
    have hm : c ∈ "\\/\"bfnrt".toList := by simpa [isShortEscape] using hc
    exact printable_of_all (by decide) c hm
  induction h with
  | nil => exact List.forall_mem_nil _
  | plain hq hb h ih =>
    exact .cons (hp _ (by simp)) (ih fun c hc => hp c (by simp [hc]))
  | short hc h ih =>
    exact .cons hb (.cons (hshort _ hc) (ih fun c hc => hp c (by simp [hc])))
  | unicode hu h ih =>
    obtain ⟨h₁, h₂, h₃, h₄⟩ := forall_of_unitOf (P := (0x20 ≤ ·.toNat)) (printable_of_all (by decide)) hu
    exact .cons hb (.cons (by decide) (.cons h₁ (.cons h₂ (.cons h₃ (.cons h₄
      (ih fun c hc => hp c (by simp [hc])))))))

/-- The contents of a string literal that denotes a text. -/
theorem printable_of_meaning {raw cs : List Char} (hc : Written.Contents raw)
    (h : meaning raw = .ok cs) : Printable raw := by
  obtain ⟨ps, hs⟩ := hc
  rw [meaning_of_spells hs, decode] at h
  rcases decodeFrom_cases hs 1 with ⟨ds, -, hds⟩ | ⟨e, he, -⟩
  · refine printable_of_spells hs fun c hmem => ?_
    by_contra hc
    exact hds.not_faulty (.control hmem (Nat.not_le.mp hc))
  · rw [he] at h
    cases h

/-! ### Forms -/

namespace Written

theorem printable_enclosed {raw : List Char} (h : Printable raw) : Printable (enclosed raw) :=
  .cons (by decide) (h.append (printable_of_all (by decide)))

/-- The literals and the keys of the form hold no control characters. -/
def Form.PrintableTokens (f : Form) : Prop := f.Each (fun l => Printable l.chars) Printable fun _ => True

theorem Form.printableTokens {f : Form} (hg : f.Grammatical) (ha : f.Accepted) : f.PrintableTokens := by
  refine (hg.and ha).imp (fun l hl => ?_) (fun raw hr => ?_) fun _ _ => trivial
  · exact forall_number (printable_of_all (by decide)) hl.1
  · obtain ⟨hc, cs, hm⟩ := hr
    exact printable_of_meaning hc hm

theorem Form.printableTokens_array {gap : List Char} {items : List (Pad × Form)} :
    (array gap items).PrintableTokens ↔ ∀ i ∈ items, i.2.PrintableTokens := eachToken_array

theorem Form.printableTokens_object {gap : List Char} {members : List (Label × Form)} :
    (object gap members).PrintableTokens ↔
      ∀ m ∈ members, Printable m.1.raw ∧ m.2.PrintableTokens := eachToken_object

theorem Literal.printable {l : Literal} (h : (Form.literal l).PrintableTokens) : Printable l.chars := by
  cases l with
  | null => exact printable_of_all (by decide)
  | boolean b => cases b <;> exact printable_of_all (by decide)
  | number l => exact h
  | string raw => exact printable_enclosed h

/-- **Tokens hold no control characters.** -/
theorem Form.printable_layout {f : Form} (hg : f.Grammatical) (ha : f.Accepted) :
    ∀ s ∈ f.layout, s.region = .token → Printable s.chars := by
  refine forall_layout (P := fun s => s.region = .token → Printable s.chars) (fun l hl _ => ?_)
    (fun raw hr _ => ?_) (fun c hc _ => ?_) (fun _ _ h => ?_) (fun _ _ h => ?_) (fun _ h => ?_)
    (printableTokens hg ha)
  · exact Literal.printable hl
  · exact printable_enclosed hr
  · have hb : "[]\x7b\x7d".toList.all (0x20 ≤ ·.toNat) = true := by decide
    exact List.forall_mem_singleton.mpr (printable_of_all hb c hc)
  · cases h
  · cases h
  · cases h

end Written

end JsonSelect
