import JsonSelect.Proofs.CommandLine.Answers
import JsonSelect.Proofs.Modes
import JsonSelect.Proofs.Rendering

/-! # Success and failure

Unless the program goes on as a shell, it either ends with the code 0 and has shown something, or it ends with
another code, has shown nothing and has told why (`run_shows_or_reports`). Each way through the program ends in
an outcome of one of these two kinds, `Outcome.Settled`: an answer to the words in `settled_reply`, a shown
document in `settled_outcome`, a trouble in `settled_trouble`. -/

namespace JsonSelect

/-! ### Texts that are not empty -/

theorem append_ne {s t : String} (h : s ≠ "" ∨ t ≠ "") : s ++ t ≠ "" := by
  rw [Ne, String.append_eq_empty_iff, not_and_or]
  exact h

theorem Line.render_ne (marks : Array Mark) (colour : Bool) (width : Nat) (l : Line) :
    l.render marks colour width ≠ "" := append_ne (.inr (by decide))

theorem Node.render_ne (n : Node) (e : Emphasis) (colour : Bool) : n.tree.render e colour ≠ "" := by
  obtain ⟨l, ls, hlines⟩ := List.exists_cons_of_ne_nil (n.lines_ne_nil 0 0 [] false)
  have htree : n.tree.lines = l :: ls := hlines
  rw [Tree.render, htree, List.map_cons, String.join_cons]
  exact append_ne (.inl (l.render_ne _ _ _))

theorem Selection.text_ne (sel : Selection) (snippets : List Snippet) (colour : Bool) :
    sel.text snippets colour ≠ "" :=
  append_ne (.inl (append_ne (.inr (by decide))))

theorem Loaded.ofText_ne (text : String) : Loaded.ofText text ≠ .nothing := by
  rw [Loaded.ofText]
  split <;> intro h <;> cases h

namespace Program

theorem selectionOutput_ne (r : Request) (colour : Bool) (s : Session) (sel : Selection) :
    selectionOutput r colour s sel ≠ "" := by
  unfold selectionOutput
  split
  · exact append_ne (.inr (by decide))
  · exact sel.text_ne _ _

theorem Trouble.text_ne (t : Trouble) : t.text ≠ "" := append_ne (.inr (by decide))

/-! ### Outcomes -/

/-- What is told of a failure, with the code that the program ends with. -/
inductive Reports (painted : Bool) : Nat → String → Prop where
  | trouble (t : Trouble) : Reports painted 1 t.text
  | refusal (r : CommandLine.Refusal) :
    Reports painted 2 ((CommandLine.Answer.refusal r).phrase.write painted)

theorem Reports.ne {painted : Bool} {code : Nat} {report : String} (h : Reports painted code report) :
    code ≠ 0 ∧ report ≠ "" := by
  cases h with
  | trouble t => exact ⟨by decide, t.text_ne⟩
  | refusal r =>
    exact ⟨by decide, (@CommandLine.Answer.Proper.refusal form version r).write_ne painted⟩

/-- Something is shown in the end, or nothing is and what went wrong is told behind what was told before. -/
inductive Outcome.Settled (painted : Bool) : Outcome → Prop where
  | shown {output errors : String} (h : output ≠ "") : Settled painted ⟨0, output, errors⟩
  | failed {code : Nat} {report : String} (told : String) (h : Reports painted code report) :
    Settled painted ⟨code, "", told ++ report⟩

theorem Outcome.Settled.by_exitCode {painted : Bool} {o : Outcome} (h : o.Settled painted) :
    (o.exitCode ≠ 0 → o.output = "" ∧
      ∃ told report, Reports painted o.exitCode report ∧ report ≠ "" ∧ o.errors = told ++ report) ∧
    (o.exitCode = 0 → o.output ≠ "") := by
  cases h with
  | shown hne => exact ⟨fun hcode => absurd rfl hcode, fun _ => hne⟩
  | failed told hreport =>
    obtain ⟨hcode, hne⟩ := hreport.ne
    exact ⟨fun _ => ⟨rfl, told, _, hreport, hne, rfl⟩, fun hzero => absurd hzero hcode⟩

/-- The program goes on as a shell over what it has opened. -/
def Converses (s : Surroundings) (words : List String) : Prop :=
  ∃ r o, Request.read words = .ok r ∧ opening s r = .ok o ∧ r.interactive = true

section
variable {painted : Bool} {s : Surroundings} {r : Request} {o : Opened} {words : List String}

/-- Words that do not ask for the interactive mode. -/
theorem not_converses (hread : Request.read words = .ok r) (h : r.interactive = false) :
    ¬ Converses s words := by
  rintro ⟨r', o, hread', -, hi⟩
  obtain rfl := Except.ok.inj (hread.symm.trans hread')
  rw [h] at hi
  cases hi

theorem settled_trouble (told : String) (t : Trouble) : Outcome.Settled painted ⟨1, "", told ++ t.text⟩ :=
  .failed told (.trouble t)

/-- Where a document is opened, a text has been loaded, if only one that is no document. -/
theorem loaded_ne_of_opening (h : opening s r = .ok o) : o.session.loaded ≠ .nothing := by
  rw [opening] at h
  cases hi : r.interactive && r.readsInput <;> rw [hi] at h
  · cases hc : Config.load s.files s.environment r.config with
    | error e =>
      rw [hc] at h
      cases h
    | ok c =>
      rw [hc] at h
      obtain ⟨text, -, ho⟩ := bind_eq_ok.mp h
      rw [← Except.ok.inj ho, Session.loaded_advance]
      exact Loaded.ofText_ne text
  · cases h

/-- **What is shown** of a loaded text is not empty. -/
theorem show_ne (h : o.session.loaded ≠ .nothing) {output : String} (hshow : o.show r = .ok output) :
    output ≠ "" := by
  rw [Opened.show] at hshow
  cases hloaded : o.session.loaded with
  | nothing => exact absurd hloaded h
  | invalid source error =>
    rw [hloaded] at hshow
    cases hshow
  | document d =>
    rw [hloaded] at hshow
    cases he : r.event? with
    | none =>
      rw [he] at hshow
      obtain rfl := Except.ok.inj hshow
      rw [Session.render?, Session.tree?, Session.document?, hloaded]
      exact d.root.render_ne _ _
    | some e =>
      simp only [he] at hshow
      split at hshow
      · cases hshow
      · split at hshow
        · cases hshow
        · obtain rfl := Except.ok.inj hshow
          exact selectionOutput_ne _ _ _ _

/-! ### Ways through the program -/

theorem settled_outcome (h : o.session.loaded ≠ .nothing) (told : String) :
    (o.outcome s r told).Settled painted := by
  rw [Opened.outcome]
  cases hshow : o.show r with
  | ok output => exact .shown (show_ne h hshow)
  | error t => exact settled_trouble _ t

theorem settled_perform (h : ∀ o, opening s r = .ok o → r.interactive = false) :
    (perform s r).Settled painted := by
  rw [perform]
  cases hopening : opening s r with
  | error t => exact settled_trouble _ t
  | ok o =>
    simp only [h o hopening]
    exact settled_outcome (loaded_ne_of_opening hopening) _

theorem settled_reply {answer : CommandLine.Answer} (h : answer.Proper form version) :
    (reply painted answer).Settled painted := by
  cases answer with
  | info phrase => exact .shown (h.write_ne painted)
  | refusal r =>
    have hreport := Outcome.Settled.failed "" (@Reports.refusal painted r)
    rwa [String.empty_append] at hreport

theorem answers_request (words : List String) : CommandLine.Answers form version (Request.read words) :=
  CommandLine.answers_bind (CommandLine.answers_read form version words) fun _ => CommandLine.answers_ok _

theorem settled_run (h : ¬ Converses s words) :
    (run s words).Settled (paintsAnswers s.environment s.terminal) := by
  rw [run]
  cases hread : Request.read words with
  | ok r =>
    refine settled_perform fun o ho => ?_
    rw [← Bool.not_eq_true]
    exact fun hi => h ⟨r, o, hread, ho, hi⟩
  | error answer => exact settled_reply (answers_request words answer hread)

/-- **Success and failure.** Unless it goes on as a shell, the program shows nothing where it fails, and tells
the trouble or the refusal behind all else that it tells; where it succeeds, it shows something. -/
theorem run_shows_or_reports (h : ¬ Converses s words) :
    let o := run s words
    (o.exitCode ≠ 0 → o.output = "" ∧ ∃ told report,
      Reports (paintsAnswers s.environment s.terminal) o.exitCode report ∧ report ≠ "" ∧
        o.errors = told ++ report) ∧
    (o.exitCode = 0 → o.output ≠ "") :=
  (settled_run h).by_exitCode

/-- An empty array shows its first unit, and a unit that it does not have is asked for in vain. -/
theorem run_reports_unknown_unit :
    let found := run emptyArray ["a", "--unit", "0"]
    let lost := run emptyArray ["a", "--unit", "9"]
    ¬ Converses emptyArray ["a", "--unit", "0"] ∧ found.exitCode = 0 ∧ found.output ≠ "" ∧
      ¬ Converses emptyArray ["a", "--unit", "9"] ∧ lost.exitCode = 1 ∧ lost.output = "" ∧ lost.errors ≠ "" := by
  intro found lost
  have hfound : ¬ Converses emptyArray ["a", "--unit", "0"] :=
    not_converses (r := { Request.ofFile "a" with unit := some 0 }) (by rfl) rfl
  have hlost : ¬ Converses emptyArray ["a", "--unit", "9"] :=
    not_converses (r := { Request.ofFile "a" with unit := some 9 }) (by rfl) rfl
  have hzero : found.exitCode = 0 := by rfl
  have hone : lost.exitCode = 1 := by rfl
  obtain ⟨-, hshows⟩ := run_shows_or_reports hfound
  obtain ⟨hfail, -⟩ := run_shows_or_reports hlost
  obtain ⟨houtput, told, report, -, hne, herrors⟩ := hfail (by rw [hone]; decide)
  refine ⟨hfound, hzero, hshows hzero, hlost, hone, houtput, ?_⟩
  rw [herrors]
  exact append_ne (.inr hne)

end

end Program

end JsonSelect
