import JsonSelect.Proofs.Session
import Mathlib.Data.List.DropRight

/-! # What a run leads to

Where a run of events leads can be read off the list of events. What an event does, its `Effect`, depends on
the loaded text and on nothing else in the session (`apply_eq`), and the text is that of the last edit. So
each part of the session after a run comes from the last event since the last edit that changes that part
(`run_closed_form`), and language, selection and hovering do not meet. -/

namespace JsonSelect

/-! ### Effects -/

/-- What an event does to a session. -/
inductive Effect where
  | load (source : String)
  | select (selection : Selection)
  /-- The path is hovered from now on, or none is. -/
  | hover (path : Option Path)
  | language (language : Language)

namespace Effect

/-- The text that is loaded. -/
def source? : Effect → Option String
  | load source => some source
  | _ => none

/-- What is selected. -/
def selection? : Effect → Option Selection
  | select selection => some selection
  | _ => none

/-- What is hovered. -/
def hover? : Effect → Option (Option Path)
  | hover path => some path
  | _ => none

/-- The language that is changed to. -/
def language? : Effect → Option Language
  | language l => some l
  | _ => none

end Effect

namespace Loaded

/-- The unit with a number, or why there is none. -/
def unit (loaded : Loaded) (id : Nat) : Except SessionError TreeUnit :=
  loaded.document?.elim (.error .noDocument) fun d =>
    (d.root.tree.unit? id).elim (.error (.unknownUnit id)) .ok

/-- The unit at a location, or why there is none. -/
def unitAt (loaded : Loaded) (l : Location) : Except SessionError TreeUnit :=
  loaded.document?.elim (.error .noDocument) fun d =>
    (d.offsetOf? l).elim (.error (.outOfBounds l)) fun offset =>
      (d.root.tree.unitAt? offset).elim (.error (.nothingAt l)) .ok

end Loaded

namespace Event

/-- What an event does where a text is loaded, or why it does nothing. -/
def effect (loaded : Loaded) : Event → Except SessionError Effect
  | .edit source => .ok (.load source)
  | .select id => (loaded.unit id).map fun u => .select u.select
  | .selectAt l => (loaded.unitAt l).map fun u => .select u.select
  | .hover none => .ok (.hover none)
  | .hover (some id) => (loaded.unit id).map fun u => .hover (some u.path)
  | .language l => .ok (.language l)

/-- What an event gives for a part of the session, where a text is loaded; nothing if it fails. -/
def gives {α : Type} (loaded : Loaded) (part : Effect → Option α) (e : Event) : Option α :=
  (e.effect loaded).toOption.bind part

/-- The text that an event loads. -/
def source? : Event → Option String
  | .edit source => some source
  | _ => none

/-- The language that an event changes to. -/
def language? : Event → Option Language
  | .language l => some l
  | _ => none

/-- What the last of some events gives among those that give something. -/
def last? {α : Type} (f : Event → Option α) (es : List Event) : Option α := es.reverse.findSome? f

/-- The events behind the last edit. -/
def sinceEdit (es : List Event) : List Event := es.rtakeWhile (·.source?.isNone)

/-- What the last edit loaded. -/
def loaded (es : List Event) : Loaded := (last? source? es).elim .nothing .ofText

section
variable {α : Type} {part : Effect → Option α} {loaded : Loaded} {es : List Event} {e : Event}

theorem gives_of_ok {effect : Effect} (h : e.effect loaded = .ok effect) :
    e.gives loaded part = part effect := by
  rw [gives, h]
  rfl

theorem gives_of_error {error : SessionError} (h : e.effect loaded = .error error) :
    e.gives loaded part = none := by
  rw [gives, h]
  rfl

/-- What acts on a unit gives nothing for a part that it does not change. -/
theorem bind_map_unit {u? : Except SessionError TreeUnit} {act : TreeUnit → Effect}
    (h : ∀ u, part (act u) = none) : (u?.map act).toOption.bind part = none := by
  cases u? with
  | error error => rfl
  | ok u => exact h u

/-- Only an edit loads a text, and it always does. -/
theorem gives_source (loaded : Loaded) (e : Event) : e.gives loaded Effect.source? = e.source? := by
  cases e with
  | edit source => rfl
  | select id => exact bind_map_unit fun _ => rfl
  | selectAt l => exact bind_map_unit fun _ => rfl
  | hover id =>
    cases id with
    | none => rfl
    | some id => exact bind_map_unit fun _ => rfl
  | language l => rfl

/-- Only a change of the language changes it, and it always does. -/
theorem gives_language (loaded : Loaded) (e : Event) :
    e.gives loaded Effect.language? = e.language? := by
  cases e with
  | edit source => rfl
  | select id => exact bind_map_unit fun _ => rfl
  | selectAt l => exact bind_map_unit fun _ => rfl
  | hover id =>
    cases id with
    | none => rfl
    | some id => exact bind_map_unit fun _ => rfl
  | language l => rfl

/-! ### Last events -/

theorem last?_concat (f : Event → Option α) (es : List Event) (e : Event) :
    last? f (es ++ [e]) = (f e).or (last? f es) := by
  rw [last?, List.reverse_append, List.reverse_singleton, List.singleton_append, List.findSome?_cons]
  cases f e <;> rfl

/-- An edit leaves the events before it behind. -/
theorem sinceEdit_concat_edit {source : String} (h : e.source? = some source) :
    sinceEdit (es ++ [e]) = [] := by
  rw [sinceEdit, List.rtakeWhile_concat, h]
  rfl

theorem sinceEdit_concat (h : e.source? = none) : sinceEdit (es ++ [e]) = sinceEdit es ++ [e] := by
  rw [sinceEdit, List.rtakeWhile_concat, h]
  rfl

theorem loaded_concat_edit {source : String} (h : e.source? = some source) :
    Event.loaded (es ++ [e]) = .ofText source := by
  rw [Event.loaded, last?_concat, h]
  rfl

theorem loaded_concat (h : e.source? = none) : Event.loaded (es ++ [e]) = Event.loaded es := by
  rw [Event.loaded, last?_concat, h, Option.none_or, Event.loaded]

end

end Event

namespace Session

variable {s : Session} {e : Event} {es : List Event}

/-! ### One event -/

/-- The session after an effect. -/
def take (s : Session) : Effect → Session
  | .load source => { s with loaded := .ofText source, selection := none, hover := none }
  | .select selection => { s with selection := some selection }
  | .hover path => { s with hover := path }
  | .language l => { s with language := l }

theorem elim_bind {ε α β : Type} (o : Option α) (error : ε) (f : α → Except ε β) :
    (o.elim (.error error) .ok >>= f) = o.elim (.error error) f := by
  cases o <;> rfl

theorem unit_eq (s : Session) (id : Nat) : s.unit id = s.loaded.unit id := by
  rw [unit, document, elim_bind]
  rfl

theorem unitAt_eq (s : Session) (l : Location) : s.unitAt l = s.loaded.unitAt l := by
  rw [unitAt, document, elim_bind]
  simp only [elim_bind]
  rfl

/-- **An event** has the effect that it has on the loaded text. -/
theorem apply_eq (s : Session) (e : Event) : s.apply e = (e.effect s.loaded).map s.take := by
  cases e with
  | edit source => rfl
  | select id =>
    rw [apply, unit_eq, Event.effect]
    cases s.loaded.unit id <;> rfl
  | selectAt l =>
    rw [apply, unitAt_eq, Event.effect]
    cases s.loaded.unitAt l <;> rfl
  | hover id =>
    cases id with
    | none => rfl
    | some id =>
      rw [apply, unit_eq, Event.effect]
      cases s.loaded.unit id <;> rfl
  | language l => rfl

theorem advance_of_ok {effect : Effect} (h : e.effect s.loaded = .ok effect) :
    s.advance e = s.take effect := by
  rw [advance, apply_eq, h]
  rfl

theorem advance_of_error {error : SessionError} (h : e.effect s.loaded = .error error) :
    s.advance e = s := by
  rw [advance, apply_eq, h]
  rfl

/-- Only an edit changes what is loaded. -/
theorem loaded_advance (s : Session) (e : Event) :
    (s.advance e).loaded = e.source?.elim s.loaded .ofText := by
  have hsource := Event.gives_source s.loaded e
  cases h : e.effect s.loaded with
  | error error =>
    rw [Event.gives_of_error h] at hsource
    rw [advance_of_error h, ← hsource]
    rfl
  | ok effect =>
    rw [Event.gives_of_ok h] at hsource
    rw [advance_of_ok h, ← hsource]
    cases effect <;> rfl

theorem loaded_edit {source : String} {d : Document} (h : Document.parse source = .ok d) (s : Session) :
    (s.advance (.edit source)).loaded = .document d := by
  rw [loaded_advance]
  simp only [Event.source?, Option.elim_some, Loaded.ofText, h]

/-! ### Runs -/

/-- The session that events lead to from the start, read off the list of events. -/
def summary (receiver : String) (language : Language) (es : List Event) : Session where
  receiver := receiver
  language := (Event.last? Event.language? es).getD language
  loaded := Event.loaded es
  selection := Event.last? (Event.gives (Event.loaded es) Effect.selection?) (Event.sinceEdit es)
  hover := (Event.last? (Event.gives (Event.loaded es) Effect.hover?) (Event.sinceEdit es)).join

/-- An event that loads no text adds what it gives. -/
theorem summary_concat_of_source (h : e.source? = none) (receiver : String) (language : Language) :
    summary receiver language (es ++ [e]) =
      { summary receiver language es with
        language := (e.language?.or (Event.last? Event.language? es)).getD language
        selection := (e.gives (Event.loaded es) Effect.selection?).or
          (Event.last? (Event.gives (Event.loaded es) Effect.selection?) (Event.sinceEdit es))
        hover := ((e.gives (Event.loaded es) Effect.hover?).or
          (Event.last? (Event.gives (Event.loaded es) Effect.hover?) (Event.sinceEdit es))).join } := by
  simp only [summary, Event.last?_concat, Event.sinceEdit_concat h, Event.loaded_concat h]

/-- **One more event** changes the summary as it changes the session. -/
theorem summary_concat (receiver : String) (language : Language) (es : List Event) (e : Event) :
    summary receiver language (es ++ [e]) = (summary receiver language es).advance e := by
  have hsource := Event.gives_source (Event.loaded es) e
  have hlanguage := Event.gives_language (Event.loaded es) e
  cases h : e.effect (Event.loaded es) with
  | error error =>
    rw [Event.gives_of_error h] at hsource hlanguage
    rw [advance_of_error h, summary_concat_of_source hsource.symm, ← hlanguage,
      Event.gives_of_error h, Event.gives_of_error h]
    simp only [Option.none_or]
    rfl
  | ok effect =>
    rw [Event.gives_of_ok h] at hsource hlanguage
    rw [advance_of_ok h]
    cases effect with
    | load source =>
      have hnone : Event.language? e = none := hlanguage.symm
      rw [summary, Event.sinceEdit_concat_edit hsource.symm, Event.loaded_concat_edit hsource.symm,
        Event.last?_concat, hnone, Option.none_or]
      rfl
    | select selection =>
      rw [summary_concat_of_source hsource.symm, ← hlanguage, Event.gives_of_ok h, Event.gives_of_ok h]
      rfl
    | hover path =>
      rw [summary_concat_of_source hsource.symm, ← hlanguage, Event.gives_of_ok h, Event.gives_of_ok h]
      rfl
    | language l =>
      rw [summary_concat_of_source hsource.symm, ← hlanguage, Event.gives_of_ok h, Event.gives_of_ok h]
      rfl

/-- **Every run** from the start leads to its summary. -/
theorem run_start (receiver : String) (language : Language) (es : List Event) :
    (start receiver language).run es = summary receiver language es := by
  induction es using List.reverseRecOn with
  | nil => rfl
  | append_singleton es e ih =>
    rw [summary_concat, ← ih, run, List.foldl_append]
    rfl

/-- **Runs in closed form.** The receiver stays. The language is the last one that was changed to. Loaded is
the text of the last edit, if there was one. Since that edit, the last event that applied to select a unit
gives the selection, and the last one that applied to hover gives what is hovered. Whether an event applies to
the session, and what it does there, depends on the text of the last edit alone. -/
theorem run_closed_form (receiver : String) (language : Language) (es : List Event) :
    let s := (start receiver language).run es
    let loaded := (Event.last? Event.source? es).elim .nothing Loaded.ofText
    s.receiver = receiver ∧
    s.language = (Event.last? Event.language? es).getD language ∧
    s.loaded = loaded ∧
    s.selection = Event.last? (Event.gives loaded Effect.selection?) (Event.sinceEdit es) ∧
    s.hover = (Event.last? (Event.gives loaded Effect.hover?) (Event.sinceEdit es)).join ∧
    ∀ e, s.apply e = (e.effect loaded).map s.take := by
  intro s loaded
  have hs : s = summary receiver language es := run_start receiver language es
  have hloaded : s.loaded = loaded := by rw [hs]; rfl
  refine ⟨by rw [hs]; rfl, by rw [hs]; rfl, hloaded, by rw [hs]; rfl, by rw [hs]; rfl, fun e => ?_⟩
  rw [apply_eq, hloaded]

end Session

end JsonSelect
