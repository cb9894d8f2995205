import JsonSelect.Proofs.Location
import Mathlib.Order.Monotone.Defs

/-! # Carriage returns in front of line feeds

`withReturns cs` is the text `cs` with a carriage return in front of each line feed. A byte of `cs` moves by
the number of line feeds in front of it (`moved_byteLength`), so bytes stay in order (`strictMono_moved`).
The lines and columns stay as they are: in a text without carriage returns of its own, a location lies where
its byte moved to (`liesAt_withReturns`), since the places between a return and its line feed have no
location. -/

namespace JsonSelect.Text

open Reading

/-- The text with a carriage return in front of each line feed. -/
def withReturns (cs : List Char) : List Char :=
  cs.flatMap fun c => if c = '\n' then ['\r', '\n'] else [c]

variable {c : Char} {cs before after left right : List Char}

@[simp] theorem withReturns_nil : withReturns [] = [] := rfl

@[simp] theorem withReturns_append (cs ds : List Char) :
    withReturns (cs ++ ds) = withReturns cs ++ withReturns ds := List.flatMap_append

theorem withReturns_newline (cs : List Char) : withReturns ('\n' :: cs) = '\r' :: '\n' :: withReturns cs := rfl

theorem withReturns_cons (hc : c ≠ '\n') (cs : List Char) : withReturns (c :: cs) = c :: withReturns cs := by
  rw [withReturns, List.flatMap_cons, if_neg hc]
  rfl

theorem withReturns_of_notMem (h : '\n' ∉ cs) : withReturns cs = cs := by
  induction cs with
  | nil => rfl
  | cons c cs ih =>
    obtain ⟨hc, hcs⟩ := not_or.mp (List.mem_cons.not.mp h)
    rw [withReturns_cons (Ne.symm hc), ih hcs]

theorem getLast?_withReturns (cs : List Char) : (withReturns cs).getLast? = cs.getLast? := by
  induction cs using List.reverseRecOn with
  | nil => rfl
  | append_singleton cs c ih =>
    rw [withReturns_append]
    by_cases hc : c = '\n'
    · rw [hc, withReturns_newline]
      simp
    · rw [withReturns_cons hc]
      simp

/-! ### Places between characters -/

/-- The places in a text with returns: those that come from a place in the text, and those that cut a line
break apart. -/
inductive Place : List Char → List Char → List Char → Prop
  | between (before after : List Char) :
      Place (before ++ after) (withReturns before) (withReturns after)
  | within (before after : List Char) :
      Place (before ++ '\n' :: after) (withReturns before ++ ['\r']) ('\n' :: withReturns after)

theorem Place.cons (c : Char) (h : Place cs left right) : Place (c :: cs) (withReturns [c] ++ left) right := by
  have hcons : ∀ ds, withReturns [c] ++ withReturns ds = withReturns (c :: ds) := fun ds =>
    (withReturns_append [c] ds).symm
  cases h with
  | between before after =>
    rw [hcons]
    exact .between (c :: before) after
  | within before after =>
    rw [← List.append_assoc, hcons]
    exact .within (c :: before) after

theorem place_of_withReturns (h : withReturns cs = left ++ right) : Place cs left right := by
  induction cs generalizing left with
  | nil =>
    obtain ⟨rfl, rfl⟩ := List.append_eq_nil_iff.mp h.symm
    exact .between [] []
  | cons c cs ih =>
    cases left with
    | nil =>
      rw [← show withReturns (c :: cs) = right from h]
      exact .between [] (c :: cs)
    | cons d left =>
      by_cases hc : c = '\n'
      · rw [hc, withReturns_newline] at h
        obtain ⟨hd, hrest⟩ := List.cons.inj h
        rw [hc, ← hd]
        cases left with
        | nil =>
          rw [← show '\n' :: withReturns cs = right from hrest]
          exact .within [] cs
        | cons e left =>
          obtain ⟨he, hrest⟩ := List.cons.inj hrest
          rw [← he]
          exact (ih hrest).cons '\n'
      · rw [withReturns_cons hc] at h
        obtain ⟨hd, hrest⟩ := List.cons.inj h
        have hone : withReturns [c] = [c] := withReturns_cons hc []
        have hplace := (ih hrest).cons c
        rw [hone] at hplace
        rw [← hd]
        exact hplace

/-! ### Where bytes move -/

theorem byteLength_withReturns (cs : List Char) :
    byteLength (withReturns cs) = byteLength cs + cs.count '\n' := by
  induction cs with
  | nil => rfl
  | cons c cs ih =>
    by_cases hc : c = '\n'
    · have hreturn : '\r'.utf8Size = 1 := rfl
      rw [hc, withReturns_newline, byteLength_cons, byteLength_cons, byteLength_cons, ih, hreturn,
        List.count_cons_self]
      omega
    · rw [withReturns_cons hc, byteLength_cons, byteLength_cons, ih, List.count_cons_of_ne hc]
      omega

/-- The number of line feeds among the first `offset` bytes of a text. -/
def feedsWithin (offset : Nat) : List Char → Nat
  | [] => 0
  | c :: cs =>
    if c.utf8Size ≤ offset then feedsWithin (offset - c.utf8Size) cs + if c = '\n' then 1 else 0 else 0

/-- Where the byte at `offset` of a text stands in the text with returns. -/
def moved (cs : List Char) (offset : Nat) : Nat := offset + feedsWithin offset cs

theorem feedsWithin_byteLength (before after : List Char) :
    feedsWithin (byteLength before) (before ++ after) = before.count '\n' := by
  induction before with
  | nil =>
    cases after with
    | nil => rfl
    | cons c cs =>
      have := c.utf8Size_pos
      rw [List.nil_append, feedsWithin, if_neg (by rw [byteLength_nil]; omega)]
      rfl
  | cons c cs ih =>
    rw [List.cons_append, feedsWithin, byteLength_cons, if_pos (Nat.le_add_right _ _),
      Nat.add_sub_cancel_left, ih, List.count_cons]
    simp

theorem moved_byteLength (before after : List Char) :
    moved (before ++ after) (byteLength before) = byteLength (withReturns before) := by
  rw [moved, feedsWithin_byteLength, byteLength_withReturns]

/-- A byte of its own stays behind the byte in front of it unless it is a line feed. -/
theorem moved_succ (hc : c ≠ '\n') (hsize : c.utf8Size = 1) (before after : List Char) :
    moved (before ++ c :: after) (byteLength before + 1) =
      moved (before ++ c :: after) (byteLength before) + 1 := by
  have hbehind : byteLength before + 1 = byteLength (before ++ [c]) := by
    rw [byteLength_append, byteLength_cons, hsize, byteLength_nil]
  have hmoved : moved (before ++ [c] ++ after) (byteLength (before ++ [c])) =
      byteLength (withReturns (before ++ [c])) := moved_byteLength _ _
  rw [List.append_assoc, List.singleton_append, withReturns_append, withReturns_cons hc, withReturns_nil,
    byteLength_append (withReturns before), byteLength_cons, hsize, byteLength_nil] at hmoved
  rw [hbehind, hmoved, moved_byteLength]

theorem feedsWithin_le {m n : Nat} (h : m ≤ n) (cs : List Char) : feedsWithin m cs ≤ feedsWithin n cs := by
  induction cs generalizing m n with
  | nil => exact Nat.le_refl _
  | cons c cs ih =>
    rw [feedsWithin, feedsWithin]
    by_cases hm : c.utf8Size ≤ m
    · rw [if_pos hm, if_pos (Nat.le_trans hm h)]
      exact Nat.add_le_add_right (ih (Nat.sub_le_sub_right h _)) _
    · rw [if_neg hm]
      exact Nat.zero_le _

/-- **Bytes stay in order.** -/
theorem strictMono_moved (cs : List Char) : StrictMono (moved cs) := by
  intro m n h
  have := feedsWithin_le (Nat.le_of_lt h) cs
  unfold moved
  omega

/-! ### Locations -/

open Location

theorem behind_withReturns (cs : List Char) : behind (withReturns cs) = behind cs := by
  induction cs using List.reverseRecOn with
  | nil => rfl
  | append_singleton cs c ih =>
    rw [withReturns_append, behind_append_singleton, ← ih]
    by_cases hc : c = '\n'
    · -- a return moves the column only, and the line feed behind it starts a line
      rw [hc, withReturns_newline, ← List.singleton_append, ← List.append_assoc, withReturns_nil,
        behind_append_singleton, behind_append_singleton]
      rfl
    · rw [withReturns_cons hc, withReturns_nil, behind_append_singleton]

/-- **Lines and columns stay.** A location of a text without carriage returns lies in the text with returns
where its byte moved to. -/
theorem liesAt_withReturns (hr : '\r' ∉ cs) {l : Location} {offset : Nat} :
    LiesAt 0 (withReturns cs) l offset ↔ ∃ o, LiesAt 0 cs l o ∧ moved cs o = offset := by
  constructor
  · rintro ⟨left, right, h, rfl, hl, hk⟩
    cases place_of_withReturns h with
    | between before after =>
      refine ⟨byteLength before, ⟨before, after, rfl, (Nat.zero_add _).symm, ?_, fun hb => ?_⟩, ?_⟩
      · rw [← hl, behind_withReturns]
      · exact hr (List.mem_append_left _ (List.mem_of_getLast? hb.1))
      · rw [moved_byteLength, Nat.zero_add]
    | within before after =>
      refine absurd ⟨List.getLast?_concat, fun c hc => ?_⟩ hk
      exact (Option.some.inj hc).symm
  · rintro ⟨_, ⟨before, after, rfl, rfl, rfl, -⟩, rfl⟩
    refine ⟨withReturns before, withReturns after, withReturns_append .., ?_, behind_withReturns _, fun hb => ?_⟩
    · rw [Nat.zero_add, moved_byteLength, Nat.zero_add]
    · rw [getLast?_withReturns] at hb
      exact hr (List.mem_append_left _ (List.mem_of_getLast? hb.1))

end JsonSelect.Text
