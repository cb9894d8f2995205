import JsonSelect.Proofs.Reading.Outcome

/-! # Rules that agree

Two rules agree at a cursor when they have the same outcome there, with the same effect on the notes. What a
combination of rules does at a cursor depends on its parts only where they are tried. There is one lemma for
each combination, `*_congr`; for rows of items the places where an item is tried are those that items and
separators lead to (`separated_congr`). -/

namespace JsonSelect.Reading.Rule

variable {α β : Type} {r r' s s' : Rule α} {k : Cursor}

theorem bind_congr {f g : α → Rule β} (h : r k = r' k)
    (hf : ∀ a k', r.Reads k a k' → f a k' = g a k') : (r >>= f) k = (r' >>= g) k := by
  show Rule.bind r f k = Rule.bind r' g k
  simp only [Rule.bind, ← h]
  cases hr : (r k).result with
  | none => rfl
  | some p =>
    obtain ⟨a, k'⟩ := p
    simp only [hf a k' hr]

theorem orElse_congr (h : r k = r' k) (h' : s k = s' k) : (r <|> s) k = (r' <|> s') k := by
  show Rule.orElse r (fun _ => s) k = Rule.orElse r' (fun _ => s') k
  simp only [Rule.orElse, h, h']

theorem optional_congr (h : r k = r' k) : optional r k = optional r' k := by
  unfold optional
  rw [h]

theorem spanned_congr (h : r k = r' k) : spanned r k = spanned r' k := by
  unfold spanned
  rw [h]

theorem labelled_congr (name : String) (h : r k = r' k) : labelled name r k = labelled name r' k := by
  unfold labelled
  rw [h]

theorem padded_congr (h : ∀ k', blanks.Reads k () k' → r k' = r' k') : padded r k = padded r' k :=
  bind_congr rfl fun _ k' hk => bind_congr (h k' hk) fun _ _ _ => rfl

/-! ### Rows of items -/

section
variable {item item' : Rule α} {separator : Rule Unit} {P : Cursor → Prop}

/-- A place where items are tried, with all places that items and separators lead to from there. -/
structure Closed (P : Cursor → Prop) (item : Rule α) (separator : Rule Unit) : Prop where
  item : ∀ {k a k'}, P k → item.Reads k a k' → P k'
  separator : ∀ {k u k'}, P k → separator.Reads k u k' → P k'

theorem furtherItems_congr (hP : Closed P item separator) (h : ∀ k, P k → item k = item' k)
    (bound : List Char) : ∀ k, P k →
      furtherItems item separator bound k = furtherItems item' separator bound k := by
  induction bound with
  | nil => exact fun _ _ => rfl
  | cons c bound ih =>
    intro k hk
    have hnext : (do separator; item : Rule α) k = (do separator; item' : Rule α) k :=
      bind_congr rfl fun _ k' hs => h k' (hP.separator hk hs)
    refine bind_congr (optional_congr hnext) fun next k' hr => ?_
    cases next with
    | none => rfl
    | some a =>
      obtain ⟨b, hb, hi⟩ | ⟨hb, -⟩ := reads_optional.mp hr
      · obtain ⟨u, k₁, hs, hi⟩ := reads_bind.mp hi
        exact bind_congr (ih k' (hP.item (hP.separator hk hs) hi)) fun _ _ _ => rfl
      · cases hb

theorem separated_congr (hP : Closed P item separator) (h : ∀ k, P k → item k = item' k) (hk : P k) :
    separated item separator k = separated item' separator k := by
  refine bind_congr (optional_congr (h k hk)) fun first k' hr => ?_
  cases first with
  | none => rfl
  | some a =>
    obtain ⟨b, -, hi⟩ | ⟨hb, -⟩ := reads_optional.mp hr
    · exact bind_congr (furtherItems_congr hP h k'.ahead k' (hP.item hk hi)) fun _ _ _ => rfl
    · cases hb

end

end JsonSelect.Reading.Rule
