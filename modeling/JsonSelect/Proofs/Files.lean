import JsonSelect.Files
import Mathlib.Data.List.Basic

/-! # Places in a directory

The components of a name lead from place to place of a directory (`Directory.Leads`), and reading the name gives
the bytes of the file that stands at the last one (`Directory.read_eq_ok`). On the way there are directories only.
So whatever stands at a place that is no directory makes no difference to the names that do not lead there
(`Directory.read_of_without`). -/

namespace JsonSelect.Directory

variable {d d' : Directory} {place final final' p cs : List String} {name : String} {bytes : ByteArray}

/-! ### Following a name -/

/-- Followed from the place `place` of a directory, the components `cs` lead to the place `final`. -/
inductive Leads (d : Directory) : List String → List String → List String → Prop
  | here (place : List String) : Leads d place [] place
  | stay {place : List String} {c : String} {cs final : List String} (hd : d.entry? place = some .directory)
      (hc : c = "" ∨ c = ".") (h : Leads d place cs final) : Leads d place (c :: cs) final
  | up {last : String} {place cs final : List String} (hd : d.entry? (last :: place) = some .directory)
      (h : Leads d place cs final) : Leads d (last :: place) (".." :: cs) final
  | down {place : List String} {c : String} {cs final : List String} (hd : d.entry? place = some .directory)
      (hc : ¬ (c = "" ∨ c = ".")) (hup : c ≠ "..") (hlength : c.utf8ByteSize ≤ longestComponent)
      (h : Leads d (c :: place) cs final) : Leads d place (c :: cs) final

/-- A name leads to one place. -/
theorem Leads.unique (h : d.Leads place cs final) (h' : d.Leads place cs final') : final = final' := by
  induction h with
  | here place =>
    cases h'
    rfl
  | stay _ hc _ ih =>
    cases h' with
    | stay _ _ h' => exact ih h'
    | up _ _ => exact absurd hc (by decide)
    | down _ hc' _ _ _ => exact absurd hc hc'
  | up _ _ ih =>
    cases h' with
    | stay _ hc _ => exact absurd hc (by decide)
    | up _ h' => exact ih h'
    | down _ _ hup _ _ => exact absurd rfl hup
  | down _ hc hup _ _ ih =>
    cases h' with
    | stay _ hc' _ => exact absurd hc' hc
    | up _ _ => exact absurd rfl hup
    | down _ _ _ _ h' => exact ih h'

theorem followOutside_ne_file : followOutside cs ≠ .ok (.file bytes) := by
  induction cs with
  | nil => simp [followOutside]
  | cons c cs ih =>
    rw [followOutside]
    split_ifs
    · exact ih
    · simp
    · simp

/-- From a directory a component leads on, to the same place, above it or below it. -/
theorem follow_cons (hd : d.entry? place = some .directory) (c : String) (cs : List String) :
    d.follow place (c :: cs) =
      if c = "" ∨ c = "." then d.follow place cs
      else if c = ".." then place.casesOn (followOutside cs) fun _ above => d.follow above cs
      else if longestComponent < c.utf8ByteSize then .error .nameTooLong
      else d.follow (c :: place) cs := by
  cases place <;> rw [follow, hd]

/-- Only a directory leads on. -/
theorem directory_of_follow {c : String} (h : d.follow place (c :: cs) = .ok (.file bytes)) :
    d.entry? place = some .directory := by
  rw [follow.eq_def] at h
  dsimp only at h
  split at h
  · cases h
  · cases h
  · assumption

/-- **Following components** ends at a file exactly if they lead to the place of the file. -/
theorem follow_eq_file : d.follow place cs = .ok (.file bytes) ↔
    ∃ final, d.Leads place cs final ∧ d.entry? final = some (.file bytes) := by
  constructor
  · intro h
    induction cs generalizing place with
    | nil =>
      refine ⟨place, .here place, ?_⟩
      rw [follow] at h
      cases he : d.entry? place with
      | none => simp [he] at h
      | some e =>
        rw [he] at h
        exact congrArg some (Except.ok.inj h)
    | cons c cs ih =>
      have hd := directory_of_follow h
      rw [follow_cons hd] at h
      split_ifs at h with hc hup hlength
      · obtain ⟨final, hl, hf⟩ := ih h
        exact ⟨final, .stay hd hc hl, hf⟩
      · cases place with
        | nil => exact absurd h followOutside_ne_file
        | cons last place =>
          obtain ⟨final, hl, hf⟩ := ih h
          exact ⟨final, hup ▸ .up hd hl, hf⟩
      · obtain ⟨final, hl, hf⟩ := ih h
        exact ⟨final, .down hd hc hup (Nat.le_of_not_lt hlength) hl, hf⟩
  · rintro ⟨final, hl, hf⟩
    induction hl with
    | here place =>
      rw [follow, hf]
      rfl
    | stay hd hc _ ih => rw [follow_cons hd, if_pos hc, ih hf]
    | up hd _ ih =>
      rw [follow_cons hd, if_neg (by decide), if_pos rfl]
      exact ih hf
    | down hd hc hup hlength _ ih =>
      rw [follow_cons hd, if_neg hc, if_neg hup, if_neg (Nat.not_lt.mpr hlength), ih hf]

/-- What a name must be to be followed from a directory at all. -/
structure Followed (name : String) : Prop where
  noNul : '\x00' ∉ name.toList
  nonempty : ¬ name.isEmpty = true
  short : ¬ longestName < name.utf8ByteSize
  relative : ¬ name.toList.head? = some '/'

/-- **Reading a name** gives the bytes of the file that its components lead to. -/
theorem read_eq_ok : d.read name = .ok bytes ↔ Followed name ∧
    ∃ final, d.Leads [] (components name) final ∧ d.entry? final = some (.file bytes) := by
  rw [← follow_eq_file]
  constructor
  · intro h
    simp only [read] at h
    split_ifs at h with hnul hempty hlong houtside
    · split at h
      · next hfile => exact absurd hfile followOutside_ne_file
      · cases h
      · cases h
    · split at h
      · next hfile =>
        obtain rfl := Except.ok.inj h
        exact ⟨⟨hnul, hempty, hlong, houtside⟩, hfile⟩
      · cases h
      · cases h
  · rintro ⟨⟨hnul, hempty, hlong, houtside⟩, hfile⟩
    simp only [read, if_neg hnul, if_neg hempty, if_neg hlong, if_neg houtside, hfile]

/-! ### Directories that differ at one place -/

/-- Directories that differ at a place where there is no directory lead to the same places. -/
theorem Leads.of_agree (h : d.Leads place cs final) (hp : d.entry? p ≠ some .directory)
    (hagree : ∀ place, place ≠ p → d'.entry? place = d.entry? place) : d'.Leads place cs final := by
  have hdirectory : ∀ {place}, d.entry? place = some .directory → d'.entry? place = some .directory := by
    intro place hd
    rwa [hagree place fun e => hp (e ▸ hd)]
  induction h with
  | here place => exact .here place
  | stay hd hc _ ih => exact .stay (hdirectory hd) hc ih
  | up hd _ ih => exact .up (hdirectory hd) ih
  | down hd hc hup hlength _ ih => exact .down (hdirectory hd) hc hup hlength ih

/-- The directory without what it holds under a name. -/
def without (d : Directory) (name : String) : Directory := ⟨d.entries.filter (·.1 != name)⟩

/-- Only a place of one component has a name without a slash. -/
theorem eq_singleton_of_intercalate (hname : '/' ∉ name.toList) (hne : place ≠ [])
    (h : "/".intercalate place.reverse = name) : place = [name] := by
  cases hr : place.reverse with
  | nil => exact absurd (List.reverse_eq_nil_iff.mp hr) hne
  | cons c cs =>
    cases cs with
    | nil =>
      rw [hr, String.intercalate_singleton] at h
      rw [← List.reverse_reverse place, hr, h, List.reverse_singleton]
    | cons c' cs =>
      refine absurd ?_ hname
      rw [← h, hr, String.intercalate_cons_cons]
      simp

theorem entry?_without (hname : '/' ∉ name.toList) (h : place ≠ [name]) :
    Directory.entry? (d.without name) place = d.entry? place := by
  by_cases hne : place = []
  · rw [hne]
    rfl
  · have hother : "/".intercalate place.reverse ≠ name := fun e => h (eq_singleton_of_intercalate hname hne e)
    have hempty : ¬ place.isEmpty = true := mt List.isEmpty_iff.mp hne
    unfold entry?
    rw [if_neg hempty, if_neg hempty, without, List.find?_filter]
    congr 2
    funext e
    by_cases he : e.1 = "/".intercalate place.reverse
    · simp [he, hother]
    · simp [he]

/-- **Another file makes no difference.** Two directories may hold different things under a name, where the
first one has no directory: what is read from the first one under a name that leads elsewhere is read from the
other one, too. -/
theorem read_of_without {other : String} (hother : '/' ∉ other.toList) (hd : d.entry? [other] ≠ some .directory)
    (hsame : d'.without other = d.without other) (h : d.read name = .ok bytes)
    (hname : ¬ d.Leads [] (components name) [other]) : d'.read name = .ok bytes := by
  have hagree : ∀ place, place ≠ [other] → d'.entry? place = d.entry? place := fun place hplace => by
    rw [← entry?_without hother hplace, hsame, entry?_without hother hplace]
  obtain ⟨hfollowed, final, hl, hf⟩ := read_eq_ok.mp h
  refine read_eq_ok.mpr ⟨hfollowed, final, hl.of_agree hd hagree, ?_⟩
  rw [hagree final fun e => hname (e ▸ hl), hf]

end JsonSelect.Directory
