/-! # Parts between separators

A sequence that holds `n` separators falls into `n + 1` parts, some of which may be empty. -/

namespace JsonSelect.Text

variable {α : Type} [DecidableEq α]

/-- The parts of a sequence between the separators `sep`. -/
def parts (sep : α) : List α → List (List α)
  | [] => [[]]
  | a :: as =>
    if a = sep then [] :: parts sep as
    else
      match parts sep as with
      | [] => [[a]]
      | p :: ps => (a :: p) :: ps

theorem parts_ne_nil (sep : α) (as : List α) : parts sep as ≠ [] := by
  cases as with
  | nil => simp [parts]
  | cons a as =>
    simp only [parts]
    split
    · simp
    · split <;> simp

end JsonSelect.Text
