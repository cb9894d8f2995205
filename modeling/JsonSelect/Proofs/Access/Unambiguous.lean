import JsonSelect.Proofs.Access.Expression

/-! # Unambiguous expressions

An expression determines its receiver and its path. It is read back as its receiver and the accessors of its
path (`readBack_expression`), but accessors do not keep leading zeros, so a path is not determined by what its
expression is read as. Reading an access stops where the access ends, though; so two segments at one place
have one text (`segment_unique`), and the text of a segment is that of one segment only (`segment_injective`).
Segment by segment, two paths written at one place are the same (`segments_unique`). -/

namespace JsonSelect.Reading

open Rule Written

variable {l : Language} {s t : String} {p q : Path} {k k' : Cursor}

theorem asRead_of_index (h : shape s = .index) : asRead s = .index (digitsValue s.toList) := by
  rw [asRead, h]

theorem asRead_of_key (h : shape s = .key) : asRead s = .key s := by
  rw [asRead, h]

/-- The digits of an index stand in its segment as they are. -/
theorem toList_segment_index (h : shape s = .index) : (l.style.segment s).toList =
    l.style.index.before.toList ++ (s.toList ++ l.style.index.behind.toList) := by
  have haccess : l.style.access s = l.style.index := by rw [Style.access, h]
  have hplain : l.style.index.quoted = false := by cases l <;> rfl
  rw [Style.segment, haccess, toList_access, hplain]
  rfl

/-- **The text of a segment** that is read in one way is that of one segment only. -/
theorem segment_injective (ha : asRead s = asRead t)
    (h : (l.style.segment s).toList = (l.style.segment t).toList) : s = t := by
  cases hs : shape s with
  | key =>
    rw [asRead_of_key hs] at ha
    cases ht : shape t with
    | key =>
      rw [asRead_of_key ht] at ha
      exact Accessor.key.inj ha
    | index =>
      rw [asRead_of_index ht] at ha
      cases ha
  | index =>
    rw [asRead_of_index hs] at ha
    cases ht : shape t with
    | key =>
      rw [asRead_of_key ht] at ha
      cases ha
    | index =>
      rw [toList_segment_index hs, toList_segment_index ht] at h
      have hdigits := List.append_cancel_right (List.append_cancel_left h)
      exact String.toList_inj.mp hdigits

/-- Two segments that are written at one place are the same, and end at one place. -/
theorem segment_unique {k₁ k₂ : Cursor} (hs : k.Passes (l.style.segment s).toList k₁)
    (ht : k.Passes (l.style.segment t).toList k₂) (h₁ : EndsName k₁.ahead) (h₂ : EndsName k₂.ahead) :
    s = t ∧ k₁ = k₂ := by
  obtain ⟨ha, rfl⟩ := (reads_segment hs h₁).unique (reads_segment ht h₂)
  have htext : (l.style.segment s).toList ++ k₁.ahead = (l.style.segment t).toList ++ k₁.ahead :=
    hs.ahead.symm.trans ht.ahead
  exact ⟨segment_injective ha (List.append_cancel_right htext), rfl⟩

/-- No segment is empty, so none ends where it starts. -/
theorem not_passes_segments (s : String) (p : Path) : ¬ k.Passes (segments l (s :: p)) k := by
  intro h
  obtain ⟨c, cs, hs, -⟩ := head_segment l s
  have hpos : 0 < byteLength (segments l (s :: p)) := by
    rw [segments_cons, hs]
    exact byteLength_pos (List.cons_ne_nil _ _)
  have := h.offset
  omega

/-- **Two paths** whose segments are written up to the end from one place are the same. -/
theorem segments_unique (hp : k.Passes (segments l p) k') (hq : k.Passes (segments l q) k')
    (he : k'.ahead = []) : p = q := by
  induction p generalizing k q with
  | nil =>
    obtain rfl := Cursor.passes_nil.mp hp
    cases q with
    | nil => rfl
    | cons t q => exact absurd hq (not_passes_segments t q)
  | cons s p ih =>
    cases q with
    | nil =>
      obtain rfl := Cursor.passes_nil.mp hq
      exact absurd hp (not_passes_segments s p)
    | cons t q =>
      obtain ⟨k₁, hs, hp⟩ := Cursor.passes_append.mp hp
      obtain ⟨k₂, ht, hq⟩ := Cursor.passes_append.mp hq
      obtain ⟨rfl, rfl⟩ := segment_unique hs ht (endsName_of_passes hp he) (endsName_of_passes hq he)
      rw [ih hp hq]

/-- **An expression determines its receiver and its path**, whatever the keys on the path contain. -/
theorem expression_eq_iff (l : Language) {r r' : String} (hr : isIdentifier r = true)
    (hr' : isIdentifier r' = true) (p p' : Path) :
    l.expression r p = l.expression r' p' ↔ r = r' ∧ p = p' := by
  constructor
  · intro h
    have hread := readBack_expression l hr p
    rw [h, readBack_expression l hr' p'] at hread
    obtain rfl : r' = r := (Prod.mk.inj (Option.some.inj hread)).1
    have hsegments : segments l p = segments l p' := by
      have htext := congrArg String.toList h
      rw [toList_expression, toList_expression] at htext
      exact List.append_cancel_left htext
    have hend := Cursor.passes_start (segments l p)
    exact ⟨rfl, segments_unique hend (hsegments ▸ hend) rfl⟩
  · rintro ⟨rfl, rfl⟩
    rfl

/-- Keys that read as one index, in front of keys that look like accesses. -/
theorem expressions_differ_by_leading_zero : isIdentifier "data" = true ∧
    Language.javascript.expression "data" ["0", "get(", "\"]"] ≠
      Language.javascript.expression "data" ["00", "get(", "\"]"] := by
  have hr : isIdentifier "data" = true := by decide
  exact ⟨hr, fun h => absurd ((expression_eq_iff .javascript hr hr _ _).mp h).2 (by decide)⟩

end JsonSelect.Reading
