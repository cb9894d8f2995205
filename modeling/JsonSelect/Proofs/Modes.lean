import JsonSelect.Program.Run
import JsonSelect.Proofs.Shell.Typed

/-! # The modes of the program

The program shows a document or a selection and ends, or it goes on as a shell over the same document. Both put
together what they show on their own; still they show the same (`modes_agree`): both open the same session
(`opening_eq`), let the same event select (`Selecting`), and write a selection with the same expressions. -/

namespace JsonSelect.Program

open Shell (Command TypedAs Replies pickLine atLine)

/-! ### Requests -/

/-- A request that asks for nothing but to show a document. -/
structure Request.Plain (r : Request) : Prop where
  unit : r.unit = none
  location : r.location = none
  all : r.all = false
  json : r.json = false
  interactive : r.interactive = false

/-- Besides what `base` asks for, a request selects what a command line selects. -/
inductive Request.Asks (base : Request) : Request → String → Prop where
  | unit (id : Nat) (h : id < Text.countBound) : base.Asks { base with unit := some id } (pickLine id)
  | location (l : Location) (h : l.Typed) : base.Asks { base with location := some l } (atLine l)

/-- What a request finds: its configuration, and in its file a text that is a document. -/
structure Finds (s : Surroundings) (r : Request) (c : Config) (text : String) (d : Document) : Prop where
  document : Document.parse text = .ok d
  text : s.files.text r.input = .ok text
  config : Config.load s.files s.environment r.config = .ok c
  input : r.readsInput = false

/-- The document that is opened. -/
def opened (s : Surroundings) (r : Request) (c : Config) (text : String) : Opened where
  session := (Session.start c.receiver (r.language.getD c.language)).advance (.edit text)
  colour := c.colour && !r.noColour && paints s

section
variable {s : Surroundings} {r base : Request} {c : Config} {text : String} {d : Document} {words : List String}

theorem opening_eq (h : Finds s r c text d) : opening s r = .ok (opened s r c text) := by
  rw [opening, h.input, Bool.and_false, h.config]
  simp only [inputText, h.input, h.text]
  rfl

theorem loaded_opened (h : Finds s r c text d) : (opened s r c text).session.loaded = .document d :=
  Session.loaded_edit h.document _

/-- Requests that open the same document. -/
structure Request.Alike (r r' : Request) : Prop where
  input : r'.input = r.input
  language : r'.language = r.language
  config : r'.config = r.config
  noColour : r'.noColour = r.noColour

variable {r' : Request}

theorem Request.Alike.finds (h : r.Alike r') (hf : Finds s r c text d) : Finds s r' c text d where
  document := hf.document
  text := by rw [h.input, hf.text]
  config := by rw [h.config, hf.config]
  input := by rw [readsInput, h.input, ← readsInput, hf.input]

theorem Request.Alike.opened_eq (h : r.Alike r') : opened s r' c text = opened s r c text := by
  rw [opened, h.language, h.noColour, opened]

/-! ### What selects -/

/-- The commands and the events that select a unit. -/
inductive Selecting : Command → Event → Prop where
  | pick (id : Nat) : Selecting (.pick id) (.select id)
  | at (l : Location) : Selecting (.at l) (.selectAt l)

variable {command : Command} {e : Event} {sh : Shell} {files : Files} {colour : Bool} {σ σ' : Session}

theorem Selecting.perform (h : Selecting command e) :
    sh.perform files colour command = (some (sh.advance colour e).1, (sh.advance colour e).2) := by
  cases h <;> rfl

theorem Selecting.exists_selection (h : Selecting command e) (hs : σ.apply e = .ok σ') :
    ∃ sel, σ'.selection = some sel := by
  cases h with
  | pick id | «at» l =>
    obtain ⟨u, -, hu⟩ := bind_eq_ok.mp hs
    exact ⟨u.select, by rw [← Except.ok.inj hu]⟩

/-- A selection that applies is shown with the expression in the language of the session. -/
theorem Selecting.perform_ok (h : Selecting command e) (hs : sh.session.apply e = .ok σ') {sel : Selection}
    (hsel : σ'.selection = some sel) : sh.perform files colour command =
      (some { sh with session := σ' }, sel.text (Shell.snippetList σ') colour) := by
  have hanswer : Shell.selectionText σ' (Shell.snippetList σ') colour =
      sel.text (Shell.snippetList σ') colour := by rw [Shell.selectionText, hsel]
  rw [h.perform, Shell.advance, hs]
  cases h <;> rw [← hanswer] <;> rfl

theorem Selecting.perform_error (h : Selecting command e) {error : SessionError}
    (hs : sh.session.apply e = .error error) : sh.perform files colour command =
      (some sh, Shell.failure error.message) := by
  rw [h.perform, Shell.advance, hs]

/-! ### What is shown -/

theorem show_document {o : Opened} (hd : o.session.loaded = .document d) (hr : r.event? = none) :
    o.show r = .ok ((o.shell r).documentText o.colour) := by
  rw [Opened.show, hd, hr, Shell.documentText, Opened.shell, hd]

theorem show_error {o : Opened} (hd : o.session.loaded = .document d) (hr : r.event? = some e)
    {error : SessionError} (hs : o.session.apply e = .error error) :
    o.show r = .error (.session error) := by
  rw [Opened.show, hd, hr]
  simp only [hs]

theorem show_selection {o : Opened} (hd : o.session.loaded = .document d) (hr : r.event? = some e)
    (hjson : r.json = false) (hs : o.session.apply e = .ok σ') {sel : Selection} (hsel : σ'.selection = some sel) :
    o.show r = .ok (sel.text (wantedSnippets r σ') o.colour) := by
  rw [Opened.show, hd, hr]
  simp only [hs, hsel, selectionOutput, hjson]
  rfl

/-- A request that is carried out at once. -/
theorem run_shot (hw : Request.read words = .ok r) (hf : Finds s r c text d) (hr : r.interactive = false) :
    ∃ told, run s words = (opened s r c text).outcome s r told := by
  have hrun : run s words = (opened s r c text).outcome s r
      (logText s.environment (openingRecords s r) ++ (opened s r c text).report r.input) := by
    rw [run, hw]
    simp only [perform, opening_eq hf, hr]
    rfl
  exact ⟨_, hrun⟩

theorem run_shot_ok (hw : Request.read words = .ok r) (hf : Finds s r c text d) (hr : r.interactive = false)
    {output : String} (h : (opened s r c text).show r = .ok output) :
    (run s words).exitCode = 0 ∧ (run s words).output = output := by
  obtain ⟨told, hrun⟩ := run_shot hw hf hr
  rw [hrun, Opened.outcome, h]
  exact ⟨rfl, rfl⟩

theorem run_shot_error (hw : Request.read words = .ok r) (hf : Finds s r c text d) (hr : r.interactive = false)
    {t : Trouble} (h : (opened s r c text).show r = .error t) :
    (run s words).exitCode = 1 ∧ (run s words).output = "" ∧ ∃ told, (run s words).errors = told ++ t.text := by
  obtain ⟨told, hrun⟩ := run_shot hw hf hr
  rw [hrun, Opened.outcome, h]
  exact ⟨rfl, rfl, _, rfl⟩

/-- A request for the interactive mode, over the commands of a text. -/
theorem run_talk (hw : Request.read words = .ok r) (hf : Finds s r c text d) (hr : r.interactive = true)
    (commands : String) :
    let o := opened s r c text
    ∃ told, run { s with input := commands.toUTF8 } words =
      ⟨0, (o.shell r).output s.files o.colour commands, told⟩ := by
  intro o
  let s' : Surroundings := { s with input := commands.toUTF8 }
  have hf' : Finds s' r c text d := ⟨hf.document, hf.text, hf.config, hf.input⟩
  have hrun : run s' words = o.shellOutcome s' r
      (logText s'.environment (openingRecords s' r) ++ o.report r.input) := by
    rw [run, hw]
    simp only [perform, opening_eq hf', hr, if_true]
    rfl
  have hbroken : ((o.shell r).run s.files o.colour commands.toUTF8).broken = false := by
    rw [Shell.run, Shell.inputLines_toUTF8]
    exact Shell.broken_runLines _ _
  refine ⟨_, hrun.trans (if_neg ?_)⟩
  rw [hbroken]
  decide

/-! ### Agreement -/

/-- Such a request opens the document of its base, and shows it as text. -/
theorem Request.Asks.alike {ask : Request} {line : String} (h : base.Asks ask line) : base.Alike ask := by
  cases h <;> exact ⟨rfl, rfl, rfl, rfl⟩

theorem Request.Asks.forms (hbase : base.Plain) {ask : Request} {line : String} (h : base.Asks ask line) :
    ask.interactive = false ∧ ask.json = false ∧ ask.all = false := by
  cases h <;> exact ⟨hbase.interactive, hbase.json, hbase.all⟩

/-- The event of such a request is the one that its line denotes. -/
theorem Request.Asks.exists_event (hbase : base.Plain) {ask : Request} {line : String} (h : base.Asks ask line) :
    ∃ command e, Selecting command e ∧ TypedAs line command ∧ ask.event? = some e := by
  cases h with
  | unit id h => exact ⟨_, _, .pick id, Shell.typedAs_pickLine h, rfl⟩
  | location l h =>
    refine ⟨_, _, .at l, Shell.typedAs_atLine h, ?_⟩
    rw [Request.event?, hbase.unit]

theorem typedAs_show : TypedAs "show" .show := by
  refine ⟨by decide, by decide, Shell.command?_of_readLine ?_⟩
  rfl

theorem typedAs_all : TypedAs "all" .all := by
  refine ⟨by decide, by decide, Shell.command?_of_readLine ?_⟩
  rfl

theorem text_session (error : SessionError) :
    (Trouble.session error).text = "Error: " ++ error.message ++ "\n" := by
  have hcauses : causesText (Trouble.session error).causes = "" := rfl
  rw [Trouble.text, hcauses, String.append_empty]
  rfl

section
variable {ask : Request} {line : String}

/-- A selection that is asked for is what the line for it shows; with all expressions it is what the command for
them shows behind that line. An error is told in the same words, and the shell goes on behind it. -/
theorem select_agrees (hbase : base.Plain) (hf : Finds s base c text d) (h : base.Asks ask line)
    (hw : Request.read words = .ok ask) :
    let o := opened s base c text
    let output := (o.shell base).output s.files o.colour
    ((run s words).exitCode = 0 → Replies output "" line (run s words).output ∧
      ∀ allWords, Request.read allWords = .ok { ask with all := true } →
        (run s allWords).exitCode = 0 ∧ Replies output (line ++ "\n") "all" (run s allWords).output) ∧
    ((run s words).exitCode ≠ 0 → ∃ told message : String, (run s words).output = "" ∧
      (run s words).errors = told ++ ("Error: " ++ message ++ "\n") ∧
      ∀ rest, output (line ++ "\n" ++ rest) = Shell.prompt ++ ("error: " ++ message ++ "\n") ++ output rest) := by
  intro o output
  obtain ⟨command, e, hselecting, htyped, he⟩ := h.exists_event hbase
  obtain ⟨hi, hj, ha⟩ := h.forms hbase
  have hask : Finds s ask c text d := h.alike.finds hf
  have ho : opened s ask c text = o := h.alike.opened_eq
  have hd : o.session.loaded = .document d := loaded_opened hf
  cases hs : o.session.apply e with
  | error error =>
    have hperform : (o.shell base).perform s.files o.colour command =
        (some (o.shell base), Shell.failure error.message) := hselecting.perform_error hs
    have hshow : (opened s ask c text).show ask = .error (.session error) := by
      rw [ho, show_error hd he hs]
    obtain ⟨hcode, houtput, told, htold⟩ := run_shot_error hw hask hi hshow
    rw [text_session] at htold
    refine ⟨fun hzero => ?_, fun _ => ⟨told, error.message, houtput, htold, fun rest => ?_⟩⟩
    · rw [hcode] at hzero
      cases hzero
    · have hline := Shell.output_line htyped (by rw [hperform]) rest
      rw [hperform] at hline
      exact hline
  | ok σ =>
    obtain ⟨sel, hsel⟩ := hselecting.exists_selection hs
    let next : Shell := { o.shell base with session := σ }
    have hperform : (o.shell base).perform s.files o.colour command =
        (some next, sel.text (Shell.snippetList σ) o.colour) := hselecting.perform_ok hs hsel
    have hnext : ((o.shell base).perform s.files o.colour command).1 = some next := by rw [hperform]
    have hshow : (opened s ask c text).show ask = .ok (sel.text (Shell.snippetList σ) o.colour) := by
      rw [ho, show_selection hd he hj hs hsel, wantedSnippets, ha]
      rfl
    obtain ⟨hcode, houtput⟩ := run_shot_ok hw hask hi hshow
    refine ⟨fun _ => ⟨?_, fun allWords hall => ?_⟩, fun hne => absurd hcode hne⟩
    · have hreplies := Shell.replies_first htyped hnext
      rw [hperform] at hreplies
      rwa [houtput]
    · have hallAlike : ask.Alike { ask with all := true } := ⟨rfl, rfl, rfl, rfl⟩
      have hallShow : (opened s { ask with all := true } c text).show { ask with all := true } =
          .ok (sel.text σ.snippets o.colour) := by
        have hallEvent : { ask with all := true }.event? = some e := he
        rw [hallAlike.opened_eq, ho, show_selection hd hallEvent hj hs hsel]
        rfl
      obtain ⟨hallCode, hallOutput⟩ := run_shot_ok hall (hallAlike.finds hask) hi hallShow
      have hreply : next.perform s.files o.colour .all = (some next, sel.text σ.snippets o.colour) := by
        have htext : Shell.selectionText σ σ.snippets o.colour = sel.text σ.snippets o.colour := by
          rw [Shell.selectionText, hsel]
        rw [Shell.perform, htext]
      have hreplies := Shell.replies_behind htyped hnext
        (Shell.replies_first typedAs_all (by rw [hreply]))
      rw [hreply, String.append_empty] at hreplies
      rw [hallOutput]
      exact ⟨hallCode, hreplies⟩

end

/-- **The modes agree.** Over a file that holds a document, what a request shows is what the shell shows for the
line that asks for the same: `show` at its start for the document, the line that picks a unit for the selection,
and `all` behind that line for all its expressions. Where the request fails, the shell tells the same error, and
goes on as if the line had not been there. -/
theorem modes_agree {shellWords : List String} {everything : Bool} (hbase : base.Plain)
    (hf : Finds s base c text d)
    (hshell : Request.read shellWords = .ok { base with interactive := true, all := everything }) :
    let talk := fun commands : String => run { s with input := commands.toUTF8 } shellWords
    let output := fun commands => (talk commands).output
    (∀ words, Request.read words = .ok base →
      (run s words).exitCode = 0 ∧ Replies output "" "show" (run s words).output) ∧
    ∀ ask line, base.Asks ask line → ∀ words, Request.read words = .ok ask →
      ((run s words).exitCode = 0 → Replies output "" line (run s words).output ∧
        ∀ allWords, Request.read allWords = .ok { ask with all := true } →
          (run s allWords).exitCode = 0 ∧ Replies output (line ++ "\n") "all" (run s allWords).output) ∧
      ((run s words).exitCode ≠ 0 → ∃ told message : String, (run s words).output = "" ∧
        (run s words).errors = told ++ ("Error: " ++ message ++ "\n") ∧
        ∀ rest, (talk (line ++ "\n" ++ rest)).exitCode = (talk rest).exitCode ∧
          output (line ++ "\n" ++ rest) =
            Shell.prompt ++ ("error: " ++ message ++ "\n") ++ output rest) := by
  intro talk output
  let o := opened s base c text
  have halike : base.Alike { base with interactive := true, all := everything } := ⟨rfl, rfl, rfl, rfl⟩
  have htalk : ∀ commands, (talk commands).exitCode = 0 ∧
      output commands = (o.shell base).output s.files o.colour commands := fun commands => by
    obtain ⟨told, hrun⟩ := run_talk hshell (halike.finds hf) rfl commands
    rw [halike.opened_eq] at hrun
    exact ⟨congrArg Outcome.exitCode hrun, congrArg Outcome.output hrun⟩
  have houtput : output = (o.shell base).output s.files o.colour := funext fun commands => (htalk commands).2
  have hcode : ∀ commands commands', (talk commands).exitCode = (talk commands').exitCode :=
    fun commands commands' => (htalk commands).1.trans (htalk commands').1.symm
  rw [houtput]
  refine ⟨fun words hw => ?_, fun ask line h words hw => ?_⟩
  · have hshow := show_document (loaded_opened hf) (r := base) (by rw [Request.event?, hbase.unit, hbase.location])
    obtain ⟨hcode, hshown⟩ := run_shot_ok hw hf hbase.interactive hshow
    have hperform : (o.shell base).perform s.files o.colour .show =
        (some (o.shell base), (o.shell base).documentText o.colour) := rfl
    have hreplies := Shell.replies_first typedAs_show (by rw [hperform])
    rw [hperform] at hreplies
    rw [hshown]
    exact ⟨hcode, hreplies⟩
  · obtain ⟨hok, herror⟩ := select_agrees hbase hf h hw
    refine ⟨hok, fun hne => ?_⟩
    obtain ⟨told, message, hempty, htold, hrest⟩ := herror hne
    exact ⟨told, message, hempty, htold, fun rest => ⟨hcode _ _, hrest rest⟩⟩

/-- The request to show a file, without options. -/
def Request.ofFile (name : String) : Request := ⟨name, none, none, none, false, false, false, none, false⟩

/-- A place with a file that holds an empty array. -/
def emptyArray : Surroundings where
  files name := if name = "a" then .ok "[]".toUTF8 else .error .missing
  environment _ := none
  input := .empty
  terminal := false

/-- In an empty array, its beginning and its end are selected by number and by location; a unit behind them is
not found. -/
theorem modes_agree_empty_array :
    let talk := fun commands : String => run { emptyArray with input := commands.toUTF8 } ["a", "-i"]
    let output := fun commands => (talk commands).output
    Replies output "" "show" (run emptyArray ["a"]).output ∧
      Replies output "" "pick 0" (run emptyArray ["a", "--unit", "0"]).output ∧
      Replies output "pick 0\n" "all" (run emptyArray ["a", "--all", "-u0"]).output ∧
      Replies output "" "at 1:2" (run emptyArray ["a", "--at", "1:2"]).output ∧
      ∃ told message : String, (run emptyArray ["a", "--unit", "9"]).output = "" ∧
        (run emptyArray ["a", "--unit", "9"]).errors = told ++ ("Error: " ++ message ++ "\n") ∧
        ∀ rest, (talk ("pick 9\n" ++ rest)).exitCode = (talk rest).exitCode ∧
          output ("pick 9\n" ++ rest) = Shell.prompt ++ ("error: " ++ message ++ "\n") ++ output rest := by
  intro talk output
  have hbase : (Request.ofFile "a").Plain := ⟨rfl, rfl, rfl, rfl, rfl⟩
  have hparse : Document.parse "[]" = .ok ⟨"[]", .array ⟨0, 2⟩ []⟩ := by rfl
  have htext : emptyArray.files.text "a" = .ok "[]" := by rfl
  have hconfig : Config.load emptyArray.files emptyArray.environment none = .ok ⟨"j", .python, true⟩ := by rfl
  have hf := Finds.mk (r := .ofFile "a") hparse htext hconfig (by rfl)
  have hshell : Request.read ["a", "-i"] = .ok { Request.ofFile "a" with interactive := true, all := false } := by
    rfl
  have hfirst : (Request.ofFile "a").Asks { Request.ofFile "a" with unit := some 0 } "pick 0" := .unit 0 (by decide)
  have hlast : (Request.ofFile "a").Asks { Request.ofFile "a" with location := some ⟨1, 2⟩ } "at 1:2" :=
    .location ⟨1, 2⟩ ⟨by decide, by decide, by decide, by decide⟩
  have hnone : (Request.ofFile "a").Asks { Request.ofFile "a" with unit := some 9 } "pick 9" := .unit 9 (by decide)
  obtain ⟨hplain, hselect⟩ := modes_agree hbase hf hshell
  obtain ⟨hok, -⟩ := hselect _ _ hfirst ["a", "--unit", "0"] (by rfl)
  obtain ⟨hpick, hall⟩ := hok (by rfl)
  obtain ⟨hlocated, -⟩ := hselect _ _ hlast ["a", "--at", "1:2"] (by rfl)
  obtain ⟨hat, -⟩ := hlocated (by rfl)
  obtain ⟨-, hfails⟩ := hselect _ _ hnone ["a", "--unit", "9"] (by rfl)
  have hcode : (run emptyArray ["a", "--unit", "9"]).exitCode = 1 := by rfl
  exact ⟨(hplain ["a"] (by rfl)).2, hpick, (hall ["a", "--all", "-u0"] (by rfl)).2, hat,
    hfails (by rw [hcode]; decide)⟩

end

end JsonSelect.Program
