import JsonSelect.CommandLine.Reader

/-! # Answers to words

Words are answered with the help text, with the version or with a refusal (`answers_read`), and an answer is
never empty (`Answer.Proper.write_ne`). The reader is followed from its steps to a whole command: `Answers` is
kept by everything it is put together from. -/

namespace JsonSelect

namespace Text.Phrase

/-- A phrase that starts with letters is not empty. -/
theorem write_cons_ne {painted : Bool} {accent : Accent} {s : String} (hs : s ≠ "") (fs : List Fragment) :
    write painted ⟨⟨accent, s⟩ :: fs⟩ ≠ "" := by
  rw [write, List.map_cons, String.join_cons, Ne, String.append_eq_empty_iff, Fragment.write]
  rintro ⟨h, -⟩
  split at h
  · exact hs (String.append_eq_empty_iff.mp (String.append_eq_empty_iff.mp h).1).2
  · exact hs h

end Text.Phrase

namespace CommandLine

variable {f : Form} {version : String} {p : Progress} {a : Argument} {word : Option String}

/-- The answers of a command: its help text, its version and refusals. -/
inductive Answer.Proper (f : Form) (version : String) : Answer → Prop where
  | help : Proper f version (.info f.helpText)
  | version : Proper f version (.info (versionText f version))
  | refusal (r : Refusal) : Proper f version (.refusal r)

/-- A refusal starts with the word for an error, a help text with what its command does. -/
theorem Answer.Proper.write_ne {answer : Answer} (h : answer.Proper f version) (painted : Bool) :
    answer.phrase.write painted ≠ "" := by
  cases h with
  | help => exact Text.Phrase.write_cons_ne (by simp [String.append_eq_empty_iff]) _
  | version => exact Text.Phrase.write_cons_ne (by simp [String.append_eq_empty_iff]) _
  | refusal r => exact Text.Phrase.write_cons_ne (by decide) _

/-- If it fails, then with an answer of the command. -/
def Answers {α : Type} (f : Form) (version : String) (x : Except Answer α) : Prop :=
  ∀ answer, x = .error answer → answer.Proper f version

section
variable {α β : Type} {x : Except Answer α} {k : α → Except Answer β}

theorem answers_ok (v : α) : Answers f version (.ok v) := by
  intro answer h
  cases h

theorem answers_error {answer : Answer} (h : answer.Proper f version) :
    Answers f version (.error answer : Except Answer α) := by
  rintro _ ⟨⟩
  exact h

theorem answers_refusal (r : Refusal) : Answers f version (.error (.refusal r) : Except Answer α) :=
  answers_error (.refusal r)

theorem answers_bind (hx : Answers f version x) (hk : ∀ v, Answers f version (k v)) :
    Answers f version (x >>= k) := by
  cases x with
  | ok v => exact hk v
  | error answer => exact answers_error (hx answer rfl)

theorem answers_foldlM {γ : Type} {step : α → γ → Except Answer α}
    (h : ∀ v c, Answers f version (step v c)) (cs : List γ) (v : α) :
    Answers f version (cs.foldlM step v) := by
  induction cs generalizing v with
  | nil => exact answers_ok v
  | cons c cs ih =>
    rw [List.foldlM_cons]
    exact answers_bind (h v c) ih

end

/-! ### Taking an argument -/

theorem proper_refuseValue (a : Argument) (word : String) (fault : ValueFault) :
    (refuseValue a word fault).Proper f version := by
  cases fault <;> exact .refusal _

theorem proper_acceptValue {sort : ValueSort} {w : String} {answer : Answer}
    (h : (accept.acceptValue p a sort w).2 = some answer) : answer.Proper f version := by
  rw [accept.acceptValue] at h
  split at h
  · cases h
  · obtain rfl := Option.some.inj h
    exact proper_refuseValue _ _ _

theorem proper_accept {answer : Answer} (h : (accept f version p a word).2 = some answer) :
    answer.Proper f version := by
  unfold accept at h
  split at h
  · obtain rfl := Option.some.inj h
    exact .help
  · obtain rfl := Option.some.inj h
    exact .version
  · split at h
    · obtain rfl := Option.some.inj h
      exact .refusal _
    · cases h
  · obtain rfl := Option.some.inj h
    exact proper_refuseValue _ _ _
  · obtain rfl := Option.some.inj h
    exact proper_refuseValue _ _ _
  · exact proper_acceptValue h
  · split at h
    · obtain rfl := Option.some.inj h
      exact .refusal _
    · exact proper_acceptValue h

theorem proper_settle {answer : Answer} (h : (settle f version p).2 = some answer) :
    answer.Proper f version := by
  rw [settle] at h
  split at h
  · cases h
  · exact proper_accept h

theorem answers_settled {k : Progress → Except Answer Progress} (hk : ∀ p, Answers f version (k p)) :
    Answers f version (settled f version p k) := by
  rw [settled]
  split
  next p' _ => exact hk p'
  next h => exact answers_error (proper_settle (by rw [h]))

theorem answers_acceptNow : Answers f version (acceptNow f version p a word) := by
  refine answers_settled fun p => ?_
  split
  next p' _ => exact answers_ok p'
  next h => exact answers_error (proper_accept (by rw [h]))

theorem answers_openFor : Answers f version (openFor f version p a word) :=
  answers_settled fun _ => answers_ok _

/-! ### Reading words -/

theorem proper_refuseOption (name : String) : (refuseOption f version p name).Proper f version := by
  unfold refuseOption
  extract_lets
  split <;> exact .refusal _

theorem answers_readOption (cs : List Char) : Answers f version (readOption f version p cs) := by
  unfold readOption
  extract_lets name value
  clear_value value
  split
  · exact answers_error (proper_refuseOption name)
  · split
    · exact answers_acceptNow
    · exact answers_openFor
    · exact answers_refusal _
    · exact answers_acceptNow

/-- Along the letters: one without a value lets the ones behind it be read. -/
theorem answers_readLetters (cs : List Char) : Answers f version (readLetters f version p cs) := by
  induction cs generalizing p with
  | nil => exact answers_ok p
  | cons c cs ih =>
    unfold readLetters
    split
    · exact answers_refusal _
    · split
      · exact answers_bind answers_acceptNow fun _ => ih
      · split
        · exact answers_openFor
        · exact answers_acceptNow
        · exact answers_acceptNow

theorem answers_readPlain (word : String) : Answers f version (readPlain f version p word) := by
  unfold readPlain
  split
  · exact answers_ok _
  · split
    · exact answers_refusal _
    · split
      · exact answers_refusal _
      · exact answers_openFor

theorem answers_readWord (p : Progress) (word : String) : Answers f version (readWord f version p word) := by
  unfold readWord
  split
  · exact answers_readPlain word
  · split
    · exact answers_ok _
    · exact answers_readOption _
    · exact answers_readLetters _
    · exact answers_readPlain word

theorem answers_checkConflicts (used : List Argument) : Answers f version (checkConflicts f used) := by
  unfold checkConflicts
  extract_lets
  split
  · exact answers_ok ()
  · exact answers_refusal _

theorem answers_checkRequired (used : List Argument) : Answers f version (checkRequired f used) := by
  unfold checkRequired
  extract_lets
  split
  · exact answers_ok ()
  · exact answers_refusal _

/-- **Words are answered** with the help text, with the version or with a refusal. -/
theorem answers_read (f : Form) (version : String) (words : List String) :
    Answers f version (read f version words) :=
  answers_bind (answers_foldlM answers_readWord words .start) fun _ =>
    answers_bind (answers_settled answers_ok) fun p =>
      answers_bind (answers_checkConflicts p.arguments) fun _ =>
        answers_bind (answers_checkRequired p.arguments) fun _ => answers_ok p.taken

end CommandLine

end JsonSelect
