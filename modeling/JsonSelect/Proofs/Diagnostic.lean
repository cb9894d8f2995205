import JsonSelect.Diagnostic
import JsonSelect.Proofs.Document
import JsonSelect.Proofs.Reading.Located

/-! # Parse errors in their source

A source that is no document has one parse error, which shows a stretch of the source
(`Document.parse_error_marks`): its span starts and ends between two characters, so the label counts the
characters in front of both ends and never falls back to the start. Failures of the grammar have this from what
rules note; the bracket that goes too deep is a character of one byte (`exists_of_tooDeepFrom`). -/

namespace JsonSelect

open Reading Rule

/-- In front of a place between two characters there is the text before it. -/
theorem charsBefore?_byteLength (before after : List Char) :
    charsBefore? (byteLength before) (before ++ after) = some before.length := by
  induction before with
  | nil => cases after <;> rfl
  | cons c cs ih =>
    have hc := c.utf8Size_pos
    have hsub : c.utf8Size + byteLength cs - c.utf8Size = byteLength cs := Nat.add_sub_cancel_left ..
    rw [List.cons_append, charsBefore?, byteLength_cons, if_neg (by omega), if_pos (by omega), hsub, ih]
    rfl

namespace Reading

/-- Only an opening bracket takes the count deeper. -/
theorem DepthScan.depth_step_le {c : Char} (h : isOpening c = false) (s : DepthScan) :
    (s.step c).depth ≤ s.depth := by
  unfold DepthScan.step
  rw [if_neg (Bool.eq_false_iff.mp h)]
  split_ifs <;> simp

/-- A count goes too deep at an opening bracket. -/
theorem exists_of_tooDeepFrom {s : DepthScan} (hs : s.depth ≤ maxDepth) {cs : List Char} {start offset : Nat}
    (h : s.tooDeepFrom? start cs = some offset) : ∃ before c after,
      cs = before ++ [c] ++ after ∧ c.utf8Size = 1 ∧ offset = start + byteLength before := by
  induction cs generalizing s start with
  | nil => cases h
  | cons c cs ih =>
    unfold DepthScan.tooDeepFrom? at h
    by_cases hd : maxDepth < (s.step c).depth
    · have hopening : isOpening c = true := by
        by_contra hc
        have := s.depth_step_le (Bool.eq_false_iff.mpr hc)
        omega
      simp only [isOpening, Bool.or_eq_true, decide_eq_true_eq] at hopening
      simp only [if_pos hd, Option.some.injEq] at h
      refine ⟨[], c, cs, rfl, ?_, h.symm⟩
      rcases hopening with rfl | rfl <;> rfl
    · simp only [if_neg hd] at h
      obtain ⟨before, d, after, rfl, hsize, rfl⟩ := ih (Nat.not_lt.mp hd) h
      exact ⟨c :: before, d, after, rfl, hsize, by rw [byteLength_cons, Nat.add_assoc]⟩

end Reading

namespace Document

variable {source : String} {errors : List ParseError}

/-- The failure that is reported shows a stretch of the source. -/
theorem marks_failure (source : String) : Noted (Marks source.toList) (some (failure source)) := by
  have hin : (Cursor.start source.toList).In source.toList := ⟨[], .refl _⟩
  have hnoted : Noted (Marks source.toList) (notes source).failure :=
    (located_documentWithin levels).keeps hin Notes.none (noted_none _)
  intro f hf
  obtain rfl := Option.some.inj hf
  rw [failure]
  cases hn : (notes source).failure with
  | none => exact hin.marks_cell 0
  | some f => exact hnoted f hn

/-- The bracket that goes too deep is shown as a character of the source. -/
theorem marks_tooDeep {offset : Nat} (h : tooDeepAt? source.toList = some offset) (place : Nat) :
    Marks source.toList place (ParseError.tooDeep offset).span := by
  obtain ⟨before, c, after, hs, hsize, rfl⟩ := exists_of_tooDeepFrom (Nat.zero_le _) h
  -- the span of one byte is that of a character, because a bracket takes no more
  have hp : (Cursor.start source.toList).Passes before ⟨[c] ++ after, 0 + byteLength before⟩ := by
    refine ⟨?_, rfl⟩
    rw [← List.append_assoc]
    exact hs
  refine ⟨_, ⟨after, 0 + byteLength before + 1⟩, [c], ⟨before, hp⟩, ⟨rfl, ?_⟩, rfl⟩
  rw [byteLength_cons, byteLength_nil, hsize]

/-- What is wrong with a source is one error, with one wording. -/
theorem exists_of_parse_error (h : parse source = .error errors) :
    ∃ e, errors = [e] ∧ e.reason = e.message ∧ ∃ place, Marks source.toList place e.span := by
  rcases parse_eq_error.mp h with ⟨offset, hd, rfl⟩ | ⟨-, -, rfl⟩
  · exact ⟨_, rfl, rfl, 0, marks_tooDeep hd 0⟩
  · exact ⟨_, rfl, rfl, _, marks_failure source _ rfl⟩

/-- **Every source** reads as a document or has one error, whose reason is its message and which shows a stretch
of the source: its span starts and ends between two characters, its label marks these characters, and nothing but
the reason stands beside it. -/
theorem parse_error_marks (source : String) : (∃ d, parse source = .ok d) ∨
    ∃ e, parse source = .error [e] ∧ e.reason = e.message ∧ ∃ before marked after,
      source.toList = before ++ marked ++ after ∧
      e.span = ⟨byteLength before, byteLength (before ++ marked)⟩ ∧
      (e.span.start ≤ e.span.stop ∧ e.span.stop ≤ byteLength source.toList) ∧
      charsBefore? e.span.start source.toList = some before.length ∧
      charsBefore? e.span.stop source.toList = some (before ++ marked).length ∧
      Label.ofError source.toList e = ⟨before.length, (before ++ marked).length, e.reason⟩ := by
  cases h : parse source with
  | ok d => exact .inl ⟨d, rfl⟩
  | error errors =>
    obtain ⟨e, rfl, hreason, place, k, k', marked, ⟨before, h₁⟩, h₂, hspan⟩ := exists_of_parse_error h
    refine .inr ⟨e, rfl, hreason, ?_⟩
    have hpasses := h₁.trans h₂
    have hs : source.toList = before ++ marked ++ k'.ahead := hpasses.ahead
    have hstart : e.span.start = byteLength before := by
      rw [hspan]
      exact h₁.offset.trans (Nat.zero_add _)
    have hstop : e.span.stop = byteLength (before ++ marked) := by
      rw [hspan]
      exact hpasses.offset.trans (Nat.zero_add _)
    have hbefore : charsBefore? e.span.start source.toList = some before.length := by
      rw [hstart, hs, List.append_assoc]
      exact charsBefore?_byteLength _ _
    have hmarked : charsBefore? e.span.stop source.toList = some (before ++ marked).length := by
      rw [hstop, hs]
      exact charsBefore?_byteLength _ _
    refine ⟨before, marked, k'.ahead, hs, ?_, ⟨?_, ?_⟩, hbefore, hmarked, ?_⟩
    · rw [← hstart, ← hstop]
    · rw [hstart, hstop, byteLength_append]
      exact Nat.le_add_right _ _
    · rw [hstop, hs, byteLength_append (before ++ marked)]
      exact Nat.le_add_right _ _
    · rw [Label.ofError, hbefore, hmarked]
      rfl

end Document

end JsonSelect
