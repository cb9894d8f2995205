import JsonSelect.Text.Parts
import Mathlib.Data.List.Basic

/-! # Rows and lines

What the parts of a text are where the text is put together from rows (`parts_append_cons`, `parts_flatMap`) or
from two texts (`parts_append_sep`), and that encoding each character for itself keeps the parts
(`parts_flatMap_encode`). `lines` are the parts as a reader of lines takes them: a carriage return before a
line feed goes with it, and behind the last line feed there is a line only if there is something. -/

namespace JsonSelect.Text

variable {α β : Type} [DecidableEq α] [DecidableEq β] {sep : α} {as : List α}

/-! ### Parts -/

theorem exists_parts (sep : α) (as : List α) : ∃ p ps, parts sep as = p :: ps :=
  List.exists_cons_of_ne_nil (parts_ne_nil sep as)

/-- A row without separators belongs to the first part. -/
theorem parts_append {row as p : List α} {ps : List (List α)} (h : sep ∉ row)
    (hp : parts sep as = p :: ps) : parts sep (row ++ as) = (row ++ p) :: ps := by
  induction row with
  | nil => exact hp
  | cons a row ih =>
    obtain ⟨hne, hrow⟩ := not_or.mp (mt List.mem_cons.mpr h)
    rw [List.cons_append, parts, if_neg (Ne.symm hne), ih hrow, List.cons_append]

theorem parts_sep (rest : List α) : parts sep (sep :: rest) = [] :: parts sep rest := by
  rw [parts, if_pos rfl]

theorem parts_append_cons {row : List α} (h : sep ∉ row) (rest : List α) :
    parts sep (row ++ sep :: rest) = row :: parts sep rest := by
  rw [parts_append h (parts_sep rest), List.append_nil]

/-- Rows that are ended by a separator each are the parts of their text, and nothing follows the last one. -/
theorem parts_flatMap {rows : List (List α)} (h : ∀ row ∈ rows, sep ∉ row) :
    parts sep (rows.flatMap (· ++ [sep])) = rows ++ [[]] := by
  induction rows with
  | nil => rfl
  | cons row rows ih =>
    obtain ⟨hrow, hrows⟩ := List.forall_mem_cons.mp h
    rw [List.flatMap_cons, List.append_assoc, List.singleton_append, parts_append_cons hrow, ih hrows,
      List.cons_append]

/-- Texts without separators are the parts of the text that has a separator between two of them. -/
theorem parts_intercalate {p : List α} {ps : List (List α)} (h : ∀ q ∈ p :: ps, sep ∉ q) :
    parts sep ([sep].intercalate (p :: ps)) = p :: ps := by
  induction ps generalizing p with
  | nil =>
    have hp : parts sep (p ++ []) = [p ++ []] := parts_append (h p List.mem_cons_self) rfl
    simpa using hp
  | cons q ps ih =>
    obtain ⟨hp, hps⟩ := List.forall_mem_cons.mp h
    rw [List.intercalate_cons_cons, List.append_assoc, List.singleton_append, parts_append_cons hp, ih hps]

/-- A separator divides the parts of two texts. -/
theorem parts_append_sep (as bs : List α) :
    parts sep (as ++ sep :: bs) = parts sep as ++ parts sep bs := by
  induction as with
  | nil => exact parts_sep bs
  | cons a as ih =>
    obtain ⟨p, ps, hp⟩ := exists_parts sep as
    rw [List.cons_append, parts, parts, ih, hp]
    split
    · rfl
    · rfl

/-- **Parts of an encoded text** are the encoded parts, if no other character is encoded with the code of the
separator. -/
theorem parts_flatMap_encode {encode : α → List β} {code : β} (hsep : encode sep = [code])
    (hother : ∀ a, a ≠ sep → code ∉ encode a) (as : List α) :
    parts code (as.flatMap encode) = (parts sep as).map (·.flatMap encode) := by
  induction as with
  | nil => rfl
  | cons a as ih =>
    obtain ⟨p, ps, hp⟩ := exists_parts sep as
    rw [hp, List.map_cons] at ih
    rw [List.flatMap_cons, parts]
    by_cases ha : a = sep
    · rw [if_pos ha, ha, hsep, List.singleton_append, parts, if_pos rfl, ih, hp]
      rfl
    · rw [if_neg ha, parts_append (hother a ha) ih, hp]
      rfl

/-! ### Lines -/

/-- A row without the entry `a` at its end. -/
def withoutLast (a : α) (as : List α) : List α := if as.getLast? = some a then as.dropLast else as

/-- The lines of a text, where `feed` ends a line, together with a `ret` in front of it. -/
def lines (feed ret : α) (as : List α) : List (List α) :=
  (parts feed as).dropLast.map (withoutLast ret) ++
    (parts feed as).getLast?.toList.filter (!·.isEmpty)

/-- **Lines of two texts**, of which the first one has ended its last line. -/
theorem lines_append {feed ret : α} {as : List α} (h : as = [] ∨ as.getLast? = some feed) (bs : List α) :
    lines feed ret (as ++ bs) = lines feed ret as ++ lines feed ret bs := by
  rcases h with rfl | h
  · rfl
  · obtain ⟨as, rfl⟩ := List.getLast?_eq_some_iff.mp h
    have hended : ∀ bs, lines feed ret (as ++ feed :: bs) =
        (parts feed as).map (withoutLast ret) ++ lines feed ret bs := fun bs => by
      have hne := parts_ne_nil feed bs
      rw [lines, parts_append_sep, List.dropLast_append_of_ne_nil hne, List.getLast?_append_of_ne_nil _ hne,
        List.map_append, List.append_assoc, lines]
    have hnil : lines feed ret ([] : List α) = [] := rfl
    rw [List.append_assoc, List.singleton_append, hended, hended, hnil, List.append_nil]

/-- Encoding keeps a return at the end of a row, and nothing else becomes one. -/
theorem withoutLast_flatMap {encode : α → List β} {ret : α} {code : β} (hret : encode ret = [code])
    (hother : ∀ a, a ≠ ret → code ∉ encode a) (hne : ∀ a, encode a ≠ []) (as : List α) :
    withoutLast code (as.flatMap encode) = (withoutLast ret as).flatMap encode := by
  rcases List.eq_nil_or_concat' as with rfl | ⟨as, a, rfl⟩
  · rfl
  · unfold withoutLast
    rw [List.flatMap_append, List.flatMap_singleton, List.getLast?_concat,
      List.getLast?_append_of_ne_nil _ (hne a)]
    by_cases ha : a = ret
    · rw [ha, hret, List.getLast?_singleton, if_pos rfl, if_pos rfl, List.dropLast_concat,
        List.dropLast_concat]
    · have hlast : (encode a).getLast? ≠ some code := fun h => hother a ha (List.mem_of_getLast? h)
      rw [if_neg hlast, if_neg (fun h => ha (Option.some.inj h)), List.flatMap_append,
        List.flatMap_singleton]

/-- **Lines of an encoded text** are the encoded lines. -/
theorem lines_flatMap_encode {encode : α → List β} {feed ret : α} {feedCode retCode : β}
    (hfeed : encode feed = [feedCode]) (hret : encode ret = [retCode])
    (hotherFeed : ∀ a, a ≠ feed → feedCode ∉ encode a) (hotherRet : ∀ a, a ≠ ret → retCode ∉ encode a)
    (hne : ∀ a, encode a ≠ []) (as : List α) :
    lines feedCode retCode (as.flatMap encode) = (lines feed ret as).map (·.flatMap encode) := by
  have hempty : ∀ p : List α, (p.flatMap encode).isEmpty = p.isEmpty := fun p => by
    cases p with
    | nil => rfl
    | cons a p => simp [hne a]
  rw [lines, parts_flatMap_encode hfeed hotherFeed, lines, List.map_append, List.map_map,
    ← List.map_dropLast, List.map_map]
  congr 1
  · refine List.map_congr_left fun p _ => ?_
    exact withoutLast_flatMap hret hotherRet hne p
  · rw [List.getLast?_map]
    cases (parts feed as).getLast? with
    | none => rfl
    | some p => by_cases hp : p.isEmpty <;> simp [hempty, hp]

end JsonSelect.Text
