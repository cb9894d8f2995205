import JsonSelect.Proofs.Shell.Runs
import JsonSelect.Proofs.Text.Counts

/-! # Typed command lines

A verb and one word behind it make the command of the verb with the value of the word (`typedAs_value`). So the
lines that name a unit by its number or by a location are the commands to select it. What a line shows stands
behind the prompt, and the shell goes on behind it (`run_line`). -/

namespace JsonSelect.Shell

open CommandLine Text

variable {w : List Char}

/-! ### One positional word -/

/-- A word that does not look like an option opens the positional argument of a command. -/
theorem readWord_start {f : Form} {a : Argument} (ha : f.positional? = some a) (version : String)
    {word : String} (hw : word.toList.head? ≠ some '-') :
    readWord f version .start word = .ok ⟨[], some ⟨a, some word⟩, false⟩ := by
  have hplain : readPlain f version .start word = .ok ⟨[], some ⟨a, some word⟩, false⟩ := by
    rw [readPlain, ha]
    rfl
  unfold readWord
  rw [if_neg (by decide)]
  split
  · next h => exact absurd (by rw [h]; rfl) hw
  · next h => exact absurd (by rw [h]; rfl) hw
  · next h => exact absurd (by rw [h]; rfl) hw
  · exact hplain

/-- A command that asks for one positional word takes it. -/
theorem read_positional {f : Form} {a : Argument} {label : String} {sort : ValueSort} {required : Bool}
    (ha : f.positional? = some a) (hrole : a.role = .positional label sort required)
    (hconflicts : checkConflicts f [a] = .ok ()) (hrequired : checkRequired f [a] = .ok ())
    (version : String) {word : String} (hw : word.toList.head? ≠ some '-') {v : Given}
    (hv : sort.read word = .ok v) : CommandLine.read f version [word] = .ok [⟨a, some v⟩] := by
  have hsettled : settled f version ⟨[], some ⟨a, some word⟩, false⟩ .ok =
      .ok ⟨[⟨a, some v⟩], none, false⟩ := by
    simp only [settled, settle, accept, accept.acceptValue, hrole, hv]
    rfl
  have hchecked : (do
      checkConflicts f [a]
      checkRequired f [a]
      return [⟨a, some v⟩] : Except Answer (List Taken)) = .ok [⟨a, some v⟩] := by
    rw [hconflicts, hrequired]
    rfl
  rw [CommandLine.read, List.foldlM_cons, readWord_start ha version hw]
  change (settled f version ⟨[], some ⟨a, some word⟩, false⟩ .ok >>= _) = _
  rw [hsettled]
  exact hchecked

/-! ### A verb and a word -/

theorem isWord_name (v : Verb) : IsWord v.name.toList := by
  have hne : v.name.toList ≠ [] := by cases v <;> decide
  have hall : (v.name.toList.all fun c => !isBlank c) = true := by cases v <;> rfl
  exact ⟨hne, fun c hc => by simpa using List.all_eq_true.mp hall c hc⟩

/-- The words of a line that is a verb and a word. -/
theorem words_verb (v : Verb) (h : IsWord w) :
    (words (v.name ++ " " ++ String.ofList w).toList).map String.ofList = [v.name, String.ofList w] := by
  have hline : (v.name ++ " " ++ String.ofList w).toList = v.name.toList ++ ' ' :: w := by
    rw [String.toList_append, String.toList_append, String.toList_ofList (l := w), List.append_assoc]
    rfl
  rw [hline, words_cons_blank (isWord_name v) (by decide), words_word h, List.map_cons, String.ofList_toList,
    List.map_singleton]

theorem readLine_verb (v : Verb) (h : IsWord w) : readLine (v.name ++ " " ++ String.ofList w) =
    some ((readVerb .empty v [String.ofList w]).mapError Phrase.text) := by
  rw [readLine, words_verb v h]
  cases v <;> rfl

/-- A line is typed for a command. -/
structure TypedAs (line : String) (c : Command) : Prop where
  unbroken : '\n' ∉ line.toList
  unreturned : '\r' ∉ line.toList
  command : command? line = some c

/-- A blank that is no space does not occur in a verb and a word. -/
theorem notMem_verb (v : Verb) (h : IsWord w) {b : Char} (hb : isBlank b = true) (hspace : b ≠ ' ') :
    b ∉ (v.name ++ " " ++ String.ofList w).toList := by
  have hne : ∀ {cs}, IsWord cs → b ∉ cs := fun hcs hmem => by
    rw [hcs.2 b hmem] at hb
    cases hb
  rw [String.toList_append, String.toList_append, String.toList_ofList (l := w), List.mem_append,
    List.mem_append, not_or, not_or]
  exact ⟨⟨hne (isWord_name v), fun hmem => hspace (List.mem_singleton.mp hmem)⟩, hne h⟩

/-- **A verb with its value**, typed as a word. -/
theorem typedAs_value {v : Verb} {label : String} {sort : ValueSort} {required : Bool} {g : Given}
    {c : Command} (hrole : v.role? = some (.positional label sort required)) (h : IsWord w)
    (hdash : w.head? ≠ some '-') (hvalue : sort.read (String.ofList w) = .ok g)
    (hc : Command.ofVerb? v (some g) = some c) :
    TypedAs (v.name ++ " " ++ String.ofList w) c := by
  refine ⟨notMem_verb v h (by decide) (by decide), notMem_verb v h (by decide) (by decide), ?_⟩
  let a : Argument := ⟨Verb.valueName, none, .positional label sort required, "", []⟩
  have hform : v.form "" = ⟨unwords ["", v.name], v.about, [a, Argument.helpOption]⟩ := by
    rw [Verb.form, hrole]
    rfl
  have hrequired : checkRequired (v.form "") [a] = .ok () := by
    have hmissing : (v.form "").arguments.filter (fun b => b.isRequired && !List.contains [a] b) = [] := by
      rw [hform]
      simp [Argument.isRequired, Argument.helpOption]
    rw [checkRequired, hmissing]
    rfl
  have hread : CommandLine.read (v.form "") "" [String.ofList w] = .ok [⟨a, some g⟩] := by
    refine read_positional ?_ rfl rfl hrequired "" ?_ hvalue
    · rw [hform]
      rfl
    · rwa [String.toList_ofList]
  have hverb : readVerb .empty v [String.ofList w] = .ok c := by
    have hgiven : valueOf? [⟨a, some g⟩] Verb.valueName = some g := rfl
    simp only [readVerb, Naming.empty, hread, hgiven, hc]
    rfl
  rw [command?, readLine_verb v h, hverb]
  rfl

/-- The line that names a unit by its number. -/
def pickLine (id : Nat) : String := s!"pick {id}"

/-- The line that names a unit by its location. -/
def atLine (l : Location) : String := s!"at {l.text}"

theorem typedAs_pickLine {id : Nat} (h : id < countBound) : TypedAs (pickLine id) (.pick id) := by
  have hline : pickLine id = Verb.pick.name ++ " " ++ String.ofList (Nat.toDigits 10 id) := rfl
  have hhead := head_toDigits_append id []
  rw [List.append_nil] at hhead
  rw [hline]
  refine typedAs_value (g := .count id) rfl (isWord_toDigits id) hhead ?_ rfl
  rw [ValueSort.read, String.toList_ofList, count_toDigits h]

theorem typedAs_atLine {l : Location} (h : l.Typed) : TypedAs (atLine l) (.at l) := by
  have hline : atLine l = Verb.at.name ++ " " ++ String.ofList l.text.toList := by
    rw [String.ofList_toList]
    rfl
  have hhead := head_toDigits_append l.line (':' :: Nat.toDigits 10 l.column)
  rw [← l.toList_text] at hhead
  rw [hline]
  refine typedAs_value (g := .location l) rfl l.isWord_text hhead ?_ rfl
  rw [String.ofList_toList, ValueSort.read, Location.read?_text h]

/-! ### Typed lines in a run -/

section
variable {files : Files} {colour : Bool} {s s' : Shell} {line : String} {c : Command}

/-- What is shown over a text of commands. -/
def output (files : Files) (colour : Bool) (s : Shell) (commands : String) : String :=
  (s.run files colour commands.toUTF8).output

/-- Behind the commands `before`, the line `line` is answered with `reply`, where `shows` is what is shown over
commands. -/
def Replies (shows : String → String) (before line reply : String) : Prop :=
  ∃ shown, shows before = shown ++ "\n" ∧
    shows (before ++ line ++ "\n") = shown ++ reply ++ prompt ++ "\n"

theorem textLines_line (h : TypedAs line c) (rest : String) :
    textLines (line ++ "\n" ++ rest) = line :: textLines rest := by
  have hended : Ended (line ++ "\n") := .inr (by simp)
  have hparts : parts '\n' (line ++ "\n").toList = [line.toList, []] := by
    rw [String.toList_append]
    exact parts_append_cons h.unbroken []
  have hlast : line.toList.getLast? ≠ some '\r' := fun hlast =>
    h.unreturned (List.mem_of_getLast? hlast)
  have hline : textLines (line ++ "\n") = [line] := by
    rw [textLines, Text.lines, hparts]
    simp [withoutLast, hlast]
  rw [textLines_append hended, hline, List.singleton_append]

/-- **A typed line** shows what its command shows, and the shell goes on from where the command leads. -/
theorem run_line (h : TypedAs line c) (hs : (s.perform files colour c).1 = some s') (rest : String) :
    s.run files colour (line ++ "\n" ++ rest).toUTF8 =
      (s'.run files colour rest.toUTF8).after (prompt ++ (s.perform files colour c).2) := by
  have hturn : s.turn files colour line = s.perform files colour c := turn_of_command h.command
  have hsome : (s.turn files colour line).1 = some s' := by rw [hturn, hs]
  rw [run, inputLines_toUTF8, textLines_line h, List.map_cons, runLines_of_some hsome, hturn, run,
    inputLines_toUTF8]

theorem output_line (h : TypedAs line c) (hs : (s.perform files colour c).1 = some s') (rest : String) :
    s.output files colour (line ++ "\n" ++ rest) =
      prompt ++ (s.perform files colour c).2 ++ s'.output files colour rest := by
  rw [output, run_line h hs]
  rfl

theorem output_empty (s : Shell) : s.output files colour "" = prompt ++ "\n" := rfl

theorem replies_first (h : TypedAs line c) (hs : (s.perform files colour c).1 = some s') :
    Replies (s.output files colour) "" line (s.perform files colour c).2 := by
  refine ⟨prompt, output_empty s, ?_⟩
  have hline := output_line h hs ""
  rw [output_empty, String.append_empty, ← String.append_assoc] at hline
  rw [String.empty_append, hline]

/-- Behind a typed line, the shell answers as the shell does that the line leads to. -/
theorem replies_behind (h : TypedAs line c) (hs : (s.perform files colour c).1 = some s')
    {before line' reply : String} (hr : Replies (s'.output files colour) before line' reply) :
    Replies (s.output files colour) (line ++ "\n" ++ before) line' reply := by
  obtain ⟨shown, hbefore, hreply⟩ := hr
  refine ⟨prompt ++ (s.perform files colour c).2 ++ shown, ?_, ?_⟩
  · rw [output_line h hs, hbefore]
    simp only [String.append_assoc]
  · have hassoc : line ++ "\n" ++ before ++ line' ++ "\n" = line ++ "\n" ++ (before ++ line' ++ "\n") := by
      simp only [String.append_assoc]
    rw [hassoc, output_line h hs, hreply]
    simp only [String.append_assoc]

end

end JsonSelect.Shell
