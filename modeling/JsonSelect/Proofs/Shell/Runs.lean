import JsonSelect.Proofs.Runs
import JsonSelect.Proofs.Shell.Lines

/-! # Runs of a shell

A shell reads commands from the lines of its input and carries them out one after the other. What a command
does to the shell is an event of the session and, where a file is loaded, its name (`perform_eq_next`). So a run
over the lines of a text leads where its commands lead (`last_runLines`), and the output of a run is put
together from the outputs of its parts (`runLines_append`). -/

namespace JsonSelect.Shell

variable {files : Files} {colour : Bool} {s : Shell} {line : String} {c : Command}

/-! ### Commands -/

/-- The command of a line, if it has one. -/
def command? (line : String) : Option Command := (readLine line).bind Except.toOption

/-- The commands of a text, up to the one that ends the shell. -/
def script (text : String) : List Command := ((textLines text).filterMap command?).takeWhile (· ≠ .quit)

/-- The file that a command loads, by its name and its text. -/
def Command.load? (files : Files) : Command → Option (String × String)
  | .load name => (files.text name).toOption.map fun text => (name, text)
  | _ => none

/-- The lines that ask for no change of the shell. -/
inductive Idle (files : Files) (line : String) : Prop where
  | blank (h : ∀ c ∈ line.toList, Text.isBlank c = true)
  | refused (reply : String) (h : readLine line = some (.error reply))
  | shows (c : Command) (h : readLine line = some (.ok c)) (hc : c = .show ∨ c = .languages ∨ c = .all)
  | unreadable (name : String) (fault : TextFault) (h : readLine line = some (.ok (.load name)))
    (hf : files.text name = .error fault)

/-- The shell after a command that does not end it. -/
def next (files : Files) (s : Shell) (c : Command) : Shell where
  session := (c.event? files).elim s.session s.session.advance
  name := (c.load? files).elim s.name Prod.fst

/-- What a command loads is the text of its event. -/
theorem Command.source_event (files : Files) (c : Command) :
    (c.event? files).bind Event.source? = (c.load? files).map Prod.snd := by
  cases c with
  | load name =>
    rw [event?, load?]
    cases files.text name <;> rfl
  | _ => rfl

theorem fst_advance (s : Shell) (colour : Bool) (e : Event) :
    (s.advance colour e).1 = { s with session := s.session.advance e } := by
  unfold advance Session.advance
  cases s.session.apply e <;> rfl

/-- **One command** advances the session by its event, and the name with what it loads. -/
theorem perform_eq_next (h : c ≠ .quit) : (s.perform files colour c).1 = some (s.next files c) := by
  cases c with
  | quit => exact absurd rfl h
  | «show» | languages | all => rfl
  | pick id | «at» l | hover id | language l => exact congrArg some (fst_advance s colour _)
  | load name =>
    rw [perform, next, Command.event?, Command.load?]
    cases files.text name with
    | error fault => rfl
    | ok text => exact congrArg some (fst_advance _ colour _)

/-! ### Lines -/

theorem command?_of_readLine (h : readLine line = some (.ok c)) : command? line = some c := by
  rw [command?, h]
  rfl

theorem turn_of_command (h : command? line = some c) :
    s.turn files colour line = s.perform files colour c := by
  obtain ⟨read, hr, hc⟩ := Option.bind_eq_some_iff.mp h
  cases read with
  | error reply => cases hc
  | ok c' =>
    obtain rfl : c' = c := Option.some.inj hc
    rw [turn, hr]

theorem turn_of_none (h : command? line = none) : (s.turn files colour line).1 = some s := by
  unfold command? at h
  unfold turn
  cases hr : readLine line with
  | none => rfl
  | some read =>
    cases read with
    | error reply => rfl
    | ok c => rw [hr] at h; cases h

theorem turn_of_ne_quit (h : command? line = some c) (hc : c ≠ .quit) :
    (s.turn files colour line).1 = some (s.next files c) := by
  rw [turn_of_command h, perform_eq_next hc]

theorem turn_of_quit (h : command? line = some .quit) : (s.turn files colour line).1 = none := by
  rw [turn_of_command h]
  rfl

/-- Only a line with a command to end the shell ends it. -/
theorem exists_turn (files : Files) (colour : Bool) (s : Shell) (h : command? line ≠ some .quit) :
    ∃ s', (s.turn files colour line).1 = some s' := by
  cases hc : command? line with
  | none => exact ⟨s, turn_of_none hc⟩
  | some c => exact ⟨_, turn_of_ne_quit hc fun hquit => h (by rw [hc, hquit])⟩

theorem readLine_of_blank (h : ∀ c ∈ line.toList, Text.isBlank c = true) : readLine line = none := by
  have hwords : ∀ cs : List Char, (∀ c ∈ cs, Text.isBlank c = true) → Text.wordsFrom [] cs = [] := by
    intro cs hcs
    induction cs with
    | nil => rfl
    | cons c cs ih =>
      obtain ⟨hc, hcs⟩ := List.forall_mem_cons.mp hcs
      rw [Text.wordsFrom, if_pos hc]
      exact ih hcs
  rw [readLine, Text.words, hwords _ h]
  rfl

theorem turn_of_idle (h : Idle files line) : (s.turn files colour line).1 = some s := by
  cases h with
  | blank h => rw [turn, readLine_of_blank h]
  | refused reply h => rw [turn, h]
  | shows c h hc =>
    rw [turn, h]
    rcases hc with rfl | rfl | rfl <;> rfl
  | unreadable name fault h hf =>
    rw [turn, h]
    simp only [perform, hf]

/-! ### Runs -/

theorem runLines_of_some {s' : Shell} (h : (s.turn files colour line).1 = some s')
    (lines : List (Option String)) : s.runLines files colour (some line :: lines) =
      (s'.runLines files colour lines).after (prompt ++ (s.turn files colour line).2) := by
  rw [runLines]
  split
  · next heq => rw [heq] at h; cases h
  · next heq =>
    rw [heq] at h ⊢
    rw [Option.some.inj h]

theorem runLines_of_none (h : (s.turn files colour line).1 = none) (lines : List (Option String)) :
    s.runLines files colour (some line :: lines) =
      ⟨s, prompt ++ (s.turn files colour line).2, false⟩ := by
  rw [runLines]
  split
  · next heq => rw [heq]
  · next heq => rw [heq] at h; cases h

theorem broken_runLines (s : Shell) (lines : List String) :
    (s.runLines files colour (lines.map some)).broken = false := by
  induction lines generalizing s with
  | nil => rfl
  | cons line lines ih =>
    rw [List.map_cons]
    cases h : (s.turn files colour line).1 with
    | none => rw [runLines_of_none h]
    | some s' =>
      rw [runLines_of_some h]
      exact ih s'

/-- **A run** leads where its commands lead, up to the one that ends it. -/
theorem last_runLines (s : Shell) (lines : List String) :
    (s.runLines files colour (lines.map some)).last =
      ((lines.filterMap command?).takeWhile (· ≠ .quit)).foldl (next files) s := by
  induction lines generalizing s with
  | nil => rfl
  | cons line lines ih =>
    rw [List.map_cons]
    cases h : command? line with
    | none =>
      rw [runLines_of_some (turn_of_none h), List.filterMap_cons_none h]
      exact ih s
    | some c =>
      rw [List.filterMap_cons_some h]
      by_cases hc : c = .quit
      · subst hc
        rw [runLines_of_none (turn_of_quit h)]
        rfl
      · rw [runLines_of_some (turn_of_ne_quit h hc), List.takeWhile_cons, if_pos (decide_eq_true hc)]
        exact ih _

@[simp] theorem Run.output_after (shown : String) (r : Run) : (r.after shown).output = shown ++ r.output := rfl

@[simp] theorem Run.after_after (shown shown' : String) (r : Run) :
    (r.after shown').after shown = r.after (shown ++ shown') := by
  rw [Run.after, Run.after, Run.after, String.append_assoc]

/-- **Runs compose** behind lines that do not end the shell. -/
theorem runLines_append {as : List String} (h : ∀ line ∈ as, command? line ≠ some .quit) (s : Shell)
    (bs : List (Option String)) :
    let r := s.runLines files colour (as.map some)
    ∃ shown, r.output = shown ++ (prompt ++ "\n") ∧
      s.runLines files colour (as.map some ++ bs) = (r.last.runLines files colour bs).after shown := by
  induction as generalizing s with
  | nil => exact ⟨"", rfl, by simp [Run.after, runLines]⟩
  | cons line as ih =>
    obtain ⟨hline, has⟩ := List.forall_mem_cons.mp h
    obtain ⟨s', hturn⟩ := exists_turn files colour s hline
    obtain ⟨shown, houtput, hrun⟩ := ih has s'
    refine ⟨prompt ++ (s.turn files colour line).2 ++ shown, ?_, ?_⟩
    · rw [List.map_cons, runLines_of_some hturn, Run.output_after, houtput]
      simp only [String.append_assoc]
    · rw [List.map_cons, List.cons_append, runLines_of_some hturn, hrun, Run.after_after,
        runLines_of_some hturn]
      rfl

/-! ### Commands in order -/

theorem session_foldl_next (s : Shell) (cs : List Command) :
    (cs.foldl (next files) s).session = s.session.run (cs.filterMap (·.event? files)) := by
  induction cs generalizing s with
  | nil => rfl
  | cons c cs ih =>
    rw [List.foldl_cons, ih, List.filterMap_cons, next]
    cases c.event? files <;> rfl

/-- What a shell calls its document and what it has loaded. -/
def holding (s : Shell) : String × Loaded := (s.name, s.session.loaded)

theorem holding_next (s : Shell) (c : Command) :
    (s.next files c).holding = (c.load? files).elim s.holding fun file => (file.1, .ofText file.2) := by
  have hsource := c.source_event files
  unfold holding next
  cases hload : c.load? files with
  | none =>
    rw [hload] at hsource
    cases he : c.event? files with
    | none => rfl
    | some e =>
      have hnone : e.source? = none := by simpa [he] using hsource
      simp [Session.loaded_advance, hnone]
  | some file =>
    rw [hload] at hsource
    obtain ⟨e, he, hfile⟩ := Option.bind_eq_some_iff.mp hsource
    simp [he, Session.loaded_advance, hfile]

/-- **Name and document** are those of the last file that was loaded. -/
theorem holding_foldl_next (s : Shell) (cs : List Command) :
    (cs.foldl (next files) s).holding =
      (cs.filterMap (·.load? files)).getLast?.elim s.holding fun file => (file.1, .ofText file.2) := by
  induction cs using List.reverseRecOn with
  | nil => rfl
  | append_singleton cs c ih =>
    rw [List.foldl_append, List.foldl_cons, List.foldl_nil, holding_next, ih, List.filterMap_append,
      List.getLast?_append]
    cases h : c.load? files with
    | none => simp [h]
    | some file => simp [h]

/-- **A shell refines the session.** A run over a text ends in the session that the events of its commands
lead to, in order and up to the command that ends the shell; and what the shell calls its document and what it
has loaded are the name and the text of the last file that a command loaded. Lines without a command, commands
that show something and files that cannot be read change nothing. Behind a text of ended lines that do not end
the shell, the run goes on as a run of the shell reached there, and the output as its output, in place of the
last prompt. -/
theorem run_refines_session (files : Files) (colour : Bool) (s : Shell) :
    (∀ text : String,
      let r := s.run files colour text.toUTF8
      r.broken = false ∧
      r.last.session = s.session.run ((script text).filterMap (·.event? files)) ∧
      (r.last.name, r.last.session.loaded) =
        ((script text).filterMap (·.load? files)).getLast?.elim (s.name, s.session.loaded)
          fun file => (file.1, .ofText file.2)) ∧
    (∀ line, Idle files line → (s.turn files colour line).1 = some s) ∧
    ∀ a b : String, Ended a → (∀ line ∈ textLines a, command? line ≠ some .quit) →
      let r := s.run files colour a.toUTF8
      ∃ shown, r.output = shown ++ (prompt ++ "\n") ∧
        s.run files colour (a ++ b).toUTF8 = (r.last.run files colour b.toUTF8).after shown := by
  refine ⟨fun text => ?_, fun line h => turn_of_idle h, fun a b ha hquit => ?_⟩
  · simp only [run, inputLines_toUTF8]
    refine ⟨broken_runLines s _, ?_, ?_⟩
    · rw [last_runLines, session_foldl_next]
      rfl
    · rw [last_runLines]
      exact holding_foldl_next s _
  · simp only [run, inputLines_toUTF8, textLines_append ha, List.map_append]
    exact runLines_append hquit s _

/-- A file that cannot be read leaves the shell as it was, and one that can be read gives it its name. -/
theorem run_refines_session_load :
    let files : Files := fun name => if name = "b" then .ok "[]".toUTF8 else .error .missing
    let s : Shell := ⟨.start "data" .python, "a"⟩
    let r := s.run files false "load b\n".toUTF8
    (s.turn files false "load c").1 = some s ∧
      (r.last.name, r.last.session.loaded) = ("b", .ofText "[]") ∧
      ∃ shown, r.output = shown ++ (prompt ++ "\n") ∧
        s.run files false "load b\nquit\n".toUTF8 = (r.last.run files false "quit\n".toUTF8).after shown := by
  intro files s r
  obtain ⟨hrun, hidle, happend⟩ := run_refines_session files false s
  have htext : files.text "b" = .ok "[]" := by rfl
  have hfault : files.text "c" = .error (.unreadable .missing) := rfl
  have hlines : textLines "load b\n" = ["load b"] := by decide
  have hcommand : command? "load b" = some (.load "b") := by rfl
  have hscript : script "load b\n" = [.load "b"] := by
    rw [script, hlines, List.filterMap_cons_some hcommand]
    rfl
  have hload : Command.load? files (.load "b") = some ("b", "[]") := by
    rw [Command.load?, htext]
    rfl
  have hended : Ended "load b\n" := by decide
  refine ⟨hidle _ (.unreadable "c" _ (by rfl) hfault), ?_, ?_⟩
  · obtain ⟨-, -, hholding⟩ := hrun "load b\n"
    rw [hholding, hscript, List.filterMap_cons_some hload]
    rfl
  · refine happend "load b\n" "quit\n" hended fun line hline => ?_
    obtain rfl : line = "load b" := List.mem_singleton.mp (hlines ▸ hline)
    rw [hcommand]
    decide

end JsonSelect.Shell
