import JsonSelect.Config
import JsonSelect.Proofs.Files
import JsonSelect.Proofs.Reading.Outcome
import Mathlib.Data.List.Induction

/-! # Where a configuration comes from

Each entry of a file counts for one member of the configuration or for none, and of several entries of one name
the last one counts (`Config.Layer.Told`). In front of the file come two variables, behind it the defaults
(`Config.ComesFrom`). A configuration is loaded from these three and from nothing else
(`Config.load_comes_from`): what other variables and other files hold makes no difference. -/

namespace JsonSelect.Config

variable {files files' : Files} {v v' : Variables} {asked : Option String} {c : Config}

/-! ### What a file says -/

/-- What entries say under a name, if items are read as `read` reads them: the last entry of that name counts,
and without one nothing is said. -/
inductive Says {α : Type} (read : Toml.Key → Toml.Item → Except Toml.Fault α) (name : String)
    (es : Toml.Entries) : Option α → Prop
  | last {before after : Toml.Entries} {key : Toml.Key} {item : Toml.Item} {a : α}
      (hes : es = before ++ (key, item) :: after) (hkey : key.name = name)
      (hafter : ∀ e ∈ after, e.1.name ≠ name) (hread : read key item = .ok a) : Says read name es (some a)
  | nothing (h : ∀ e ∈ es, e.1.name ≠ name) : Says read name es none

section
variable {α : Type} {read : Toml.Key → Toml.Item → Except Toml.Fault α} {name : String} {es : Toml.Entries}
  {key : Toml.Key} {item : Toml.Item}

theorem says_concat {a : α} (hkey : key.name = name) (hread : read key item = .ok a) :
    Says read name (es ++ [(key, item)]) (some a) :=
  .last rfl hkey (fun _ he => by cases he) hread

theorem Says.concat {said : Option α} (h : Says read name es said) (hkey : key.name ≠ name) :
    Says read name (es ++ [(key, item)]) said := by
  cases h with
  | @last before after key' item' a hes hkey' hafter hread =>
    have hes : es ++ [(key, item)] = before ++ (key', item') :: (after ++ [(key, item)]) := by
      rw [hes, List.append_assoc, List.cons_append]
    exact .last hes hkey' (List.forall_mem_append.mpr ⟨hafter, List.forall_mem_singleton.mpr hkey⟩) hread
  | nothing h => exact .nothing (List.forall_mem_append.mpr ⟨h, List.forall_mem_singleton.mpr hkey⟩)

end

namespace Layer

/-- A layer holds what entries say: each member what they say under its name. -/
structure Told (es : Toml.Entries) (l : Layer) : Prop where
  receiver : Says Toml.asText "receiver" es l.receiver
  language : Says (Toml.asChoice languageNamed) "default_language" es l.language
  colour : Says Toml.asBoolean "color" es l.colour

/-- What adding an entry can do. -/
theorem addEntry_cases {l l' : Layer} {key : Toml.Key} {item : Toml.Item}
    (h : addEntry l (key, item) = .ok l') :
    (key.name = "receiver" ∧ ∃ s, Toml.asText key item = .ok s ∧ l' = { l with receiver := some s }) ∨
    (key.name = "default_language" ∧ ∃ language, Toml.asChoice languageNamed key item = .ok language ∧
      l' = { l with language := some language }) ∨
    (key.name = "color" ∧ ∃ b, Toml.asBoolean key item = .ok b ∧ l' = { l with colour := some b }) ∨
    ((key.name ≠ "receiver" ∧ key.name ≠ "default_language" ∧ key.name ≠ "color") ∧ l' = l) := by
  unfold addEntry at h
  dsimp only at h
  split at h
  · next hkey =>
    obtain ⟨s, hs, hl⟩ := bind_eq_ok.mp h
    exact .inl ⟨hkey, s, hs, (Except.ok.inj hl).symm⟩
  · next hkey =>
    obtain ⟨language, hlanguage, hl⟩ := bind_eq_ok.mp h
    exact .inr (.inl ⟨hkey, language, hlanguage, (Except.ok.inj hl).symm⟩)
  · next hkey =>
    obtain ⟨b, hb, hl⟩ := bind_eq_ok.mp h
    exact .inr (.inr (.inl ⟨hkey, b, hb, (Except.ok.inj hl).symm⟩))
  · next hreceiver hlanguage hcolour =>
    exact .inr (.inr (.inr ⟨⟨hreceiver, hlanguage, hcolour⟩, (Except.ok.inj h).symm⟩))

/-- One more entry counts for its member. -/
theorem Told.addEntry {es : Toml.Entries} {l l' : Layer} {key : Toml.Key} {item : Toml.Item} (h : l.Told es)
    (he : l.addEntry (key, item) = .ok l') : l'.Told (es ++ [(key, item)]) := by
  rcases addEntry_cases he with ⟨hkey, s, hs, rfl⟩ | ⟨hkey, language, hlanguage, rfl⟩ | ⟨hkey, b, hb, rfl⟩ |
    ⟨⟨hreceiver, hlanguage, hcolour⟩, rfl⟩
  · exact ⟨says_concat hkey hs, h.language.concat (by rw [hkey]; decide), h.colour.concat (by rw [hkey]; decide)⟩
  · exact ⟨h.receiver.concat (by rw [hkey]; decide), says_concat hkey hlanguage,
      h.colour.concat (by rw [hkey]; decide)⟩
  · exact ⟨h.receiver.concat (by rw [hkey]; decide), h.language.concat (by rw [hkey]; decide),
      says_concat hkey hb⟩
  · exact ⟨h.receiver.concat hreceiver, h.language.concat hlanguage, h.colour.concat hcolour⟩

/-- **The layer of entries** holds what they say. -/
theorem told_of_foldlM {es : Toml.Entries} {l : Layer} (h : es.foldlM addEntry empty = .ok l) : l.Told es := by
  induction es using List.reverseRecOn generalizing l with
  | nil =>
    obtain rfl := Except.ok.inj h
    exact ⟨.nothing (by simp), .nothing (by simp), .nothing (by simp)⟩
  | append_singleton es e ih =>
    rw [List.foldlM_append] at h
    obtain ⟨l₀, h₀, h⟩ := bind_eq_ok.mp h
    rw [List.foldlM_cons] at h
    obtain ⟨l₁, h₁, h⟩ := bind_eq_ok.mp h
    obtain rfl := Except.ok.inj h
    exact (ih h₀).addEntry h₁

end Layer

/-- The entries that a configuration file gives: those of the file that is asked for, which has to be there, or
else of the one in the working directory, which need not be. -/
inductive Gives (files : Files) (asked : Option String) : Toml.Entries → Prop
  | read {bytes : ByteArray} {text : String} {es : Toml.Entries}
      (hfile : files (asked.getD defaultFile) = .ok bytes) (htext : Text.ofBytes bytes = .ok text)
      (hread : Toml.read text = .ok es) : Gives files asked es
  | missing (hasked : asked = none) (hfile : files defaultFile = .error .missing) : Gives files asked []

theorem told_of_ofContents {file : String} {bytes : ByteArray} {f : Layer}
    (h : Layer.ofContents file bytes = .ok f) :
    ∃ text es, Text.ofBytes bytes = .ok text ∧ Toml.read text = .ok es ∧ f.Told es := by
  unfold Layer.ofContents at h
  split at h
  · cases h
  · next text htext =>
    split at h
    · cases h
    · next hl =>
      obtain ⟨es, hread, hes⟩ := bind_eq_ok.mp hl
      obtain rfl := Except.ok.inj h
      exact ⟨text, es, htext, hread, Layer.told_of_foldlM hes⟩

/-- A file that is missing is not one that is asked for. -/
theorem eq_none_of_missing (hasked : ∀ file, asked = some file → files.holds file = true)
    (h : files (asked.getD defaultFile) = .error .missing) : asked = none := by
  cases asked with
  | none => rfl
  | some file =>
    have hholds := hasked file rfl
    rw [Option.getD_some] at h
    rw [Files.holds, h] at hholds
    cases hholds

/-- **The layer of a file** holds what the entries of the file say. -/
theorem gives_of_ofFile {f : Layer} (hasked : ∀ file, asked = some file → files.holds file = true)
    (h : Layer.ofFile files (asked.getD defaultFile) = .ok f) : ∃ es, Gives files asked es ∧ f.Told es := by
  unfold Layer.ofFile at h
  split at h
  · cases h
  · split at h
    · next bytes hfile =>
      obtain ⟨text, es, htext, hread, htold⟩ := told_of_ofContents h
      exact ⟨es, .read hfile htext hread, htold⟩
    · next hfile =>
      obtain rfl := Except.ok.inj h
      have hnone := eq_none_of_missing hasked hfile
      rw [hnone, Option.getD_none] at hfile
      exact ⟨[], .missing hnone hfile, Layer.told_of_foldlM rfl⟩
    · cases h
  · cases h

/-! ### What variables say -/

/-- The truth value that the text of a variable denotes, with blanks around it. -/
def wordTruth? (s : String) : Option Bool := truth? (String.ofList (Text.trim s.toList))

/-- A text that denotes no truth value does not pass, unless it is empty. -/
theorem variableTruth_eq_ok {s : String} {truth : Option Bool} : Layer.variableTruth s = .ok truth ↔
    truth = wordTruth? s ∧ (s = "" ∨ (wordTruth? s).isSome) := by
  simp only [Layer.variableTruth, ← wordTruth?.eq_def]
  cases wordTruth? s with
  | some b => simp [eq_comm]
  | none =>
    rw [← String.isEmpty_iff]
    split_ifs with h <;> simp [h, eq_comm]

/-- **The layer of variables** holds the receiver and the colours. -/
theorem eq_of_ofVariables {e : Layer} (h : Layer.ofVariables v = .ok e) :
    e = ⟨v receiverVariable, none, (v colourVariable).bind wordTruth?⟩ ∧
      ∀ s, v colourVariable = some s → s = "" ∨ (wordTruth? s).isSome := by
  obtain ⟨colour, hcolour, he⟩ := bind_eq_ok.mp h
  obtain rfl := Except.ok.inj he
  cases hv : v colourVariable with
  | none =>
    rw [hv, Option.elim_none] at hcolour
    obtain rfl := Except.ok.inj hcolour
    exact ⟨rfl, fun _ hs => by cases hs⟩
  | some s =>
    rw [hv, Option.elim_some] at hcolour
    obtain ⟨htruth, hpasses⟩ := variableTruth_eq_ok.mp hcolour
    rw [htruth, Option.bind_some]
    refine ⟨rfl, fun t hs => ?_⟩
    obtain rfl := Option.some.inj hs
    exact hpasses

/-! ### Loading -/

theorem layers_eq_ok {file : String} {l : Layer} : layers files v file = .ok l ↔
    ∃ e f, Layer.ofVariables v = .ok e ∧ Layer.ofFile files file = .ok f ∧ l = e.orElse f := by
  constructor
  · intro h
    obtain ⟨e, he, h⟩ := bind_eq_ok.mp h
    obtain ⟨f, hf, h⟩ := bind_eq_ok.mp h
    exact ⟨e, f, he, hf, (Except.ok.inj h).symm⟩
  · rintro ⟨e, f, he, hf, rfl⟩
    rw [layers, he, hf]
    rfl

/-- The configuration of the layers, if they can be read and the receiver is an identifier. -/
def ofLayers (r : Except LayerFault Layer) : Except ConfigError Config :=
  match r with
  | .error fault => .error (.layer fault)
  | .ok l =>
    if isIdentifier (ofLayer l).receiver then .ok (ofLayer l) else .error (.badReceiver (ofLayer l).receiver)

theorem ofLayers_eq_ok {r : Except LayerFault Layer} :
    ofLayers r = .ok c ↔ ∃ l, r = .ok l ∧ c = ofLayer l ∧ isIdentifier c.receiver = true := by
  cases r with
  | error fault => simp [ofLayers]
  | ok l =>
    simp only [ofLayers, Except.ok.injEq, exists_eq_left']
    split_ifs with h
    · rw [Except.ok.injEq, eq_comm]
      exact (and_iff_left_of_imp fun e => e ▸ h).symm
    · exact iff_of_false (by simp) fun ⟨e, hc⟩ => h (e ▸ hc)

theorem load_none (files : Files) (v : Variables) : load files v none = ofLayers (layers files v defaultFile) := rfl

theorem load_some (files : Files) (v : Variables) (file : String) : load files v (some file) =
    if files.holds file then ofLayers (layers files v file) else .error (.noFile file) := by
  simp only [load, Option.getD_some]
  cases files.holds file <;> rfl

/-- **Loading** takes the layers in their order, with the file that is asked for if it is there. -/
theorem load_eq_ok : load files v asked = .ok c ↔ (∀ file, asked = some file → files.holds file = true) ∧
    ∃ l, layers files v (asked.getD defaultFile) = .ok l ∧ c = ofLayer l ∧ isIdentifier c.receiver = true := by
  rw [← ofLayers_eq_ok]
  cases asked with
  | none =>
    rw [load_none, Option.getD_none]
    exact (and_iff_right fun _ h => by cases h).symm
  | some file =>
    rw [load_some, Option.getD_some]
    split_ifs with h
    · exact (and_iff_right fun _ he => Option.some.inj he ▸ h).symm
    · exact iff_of_false (by simp) fun hh => h (hh.1 file rfl)

/-- A configuration depends on one file and two variables. -/
theorem load_congr (hfile : files' (asked.getD defaultFile) = files (asked.getD defaultFile))
    (hreceiver : v' receiverVariable = v receiverVariable) (hcolour : v' colourVariable = v colourVariable) :
    load files' v' asked = load files v asked := by
  have hvariables : Layer.ofVariables v' = Layer.ofVariables v := by
    rw [Layer.ofVariables, hcolour, hreceiver, Layer.ofVariables]
  have hlayers : layers files' v' (asked.getD defaultFile) = layers files v (asked.getD defaultFile) := by
    rw [layers, hvariables, Layer.ofFile, hfile, layers, Layer.ofFile]
  cases asked with
  | none =>
    rw [Option.getD_none] at hlayers
    rw [load_none, load_none, hlayers]
  | some file =>
    rw [Option.getD_some] at hfile hlayers
    rw [load_some, load_some, Files.holds, Files.holds, hfile, hlayers]

/-- Where the members of a configuration come from: the variables `v`, behind them a file with the layer `f`,
behind it the defaults. No variable counts for the language. -/
structure ComesFrom (c : Config) (v : Variables) (f : Layer) : Prop where
  receiver : c.receiver = (v receiverVariable).getD (f.receiver.getD "j")
  colour : c.colour = ((v colourVariable).bind wordTruth?).getD (f.colour.getD true)
  language : c.language = f.language.getD .python
  /-- The variable for colours is passed over only if it is empty. -/
  passes : ∀ s, v colourVariable = some s → s = "" ∨ (wordTruth? s).isSome

theorem comesFrom_of_layers {e f : Layer} (he : Layer.ofVariables v = .ok e) :
    (ofLayer (e.orElse f)).ComesFrom v f := by
  obtain ⟨rfl, hpasses⟩ := eq_of_ofVariables he
  refine ⟨?_, ?_, rfl, hpasses⟩
  · cases v receiverVariable <;> rfl
  · simp only [ofLayer, Layer.orElse]
    cases (v colourVariable).bind wordTruth? <;> rfl

/-- **Where a configuration comes from.** The receiver of a configuration that is loaded is an identifier.
Receiver and colours come from their variables, behind these from the entries of the file, and behind those from
the defaults; the language comes from the entries or is the default, whatever the variables are. Other variables
and other files make no difference: with a file that is asked for, nor does what stands under the name of the
default file in the working directory, where the two are different files. -/
theorem load_comes_from (h : load files v asked = .ok c) :
    isIdentifier c.receiver = true ∧
    (∃ es f, Gives files asked es ∧ f.Told es ∧ c.ComesFrom v f) ∧
    (∀ v' c', load files v' asked = .ok c' → c'.language = c.language) ∧
    (∀ files' v', files' (asked.getD defaultFile) = files (asked.getD defaultFile) →
      v' receiverVariable = v receiverVariable → v' colourVariable = v colourVariable →
      load files' v' asked = .ok c) ∧
    ∀ (d d' : Directory) file, files = d.read → asked = some file → d.entry? [defaultFile] ≠ some .directory →
      d'.without defaultFile = d.without defaultFile → ¬ d.Leads [] (components file) [defaultFile] →
      load d'.read v asked = .ok c := by
  obtain ⟨hasked, l, hl, rfl, hreceiver⟩ := load_eq_ok.mp h
  obtain ⟨e, f, he, hf, rfl⟩ := layers_eq_ok.mp hl
  obtain ⟨es, hes, htold⟩ := gives_of_ofFile hasked hf
  refine ⟨hreceiver, ⟨es, f, hes, htold, comesFrom_of_layers he⟩, fun v' c' h' => ?_,
    fun files' v' hfile hr hc => (load_congr hfile hr hc).trans h, ?_⟩
  · obtain ⟨-, l', hl', rfl, -⟩ := load_eq_ok.mp h'
    obtain ⟨e', f', he', hf', rfl⟩ := layers_eq_ok.mp hl'
    obtain rfl := Except.ok.inj (hf'.symm.trans hf)
    exact (comesFrom_of_layers he').language.trans (comesFrom_of_layers he).language.symm
  · rintro d d' file rfl rfl hd hsame hother
    cases hes with
    | read hfile _ _ =>
      have hread := Directory.read_of_without (by decide) hd hsame hfile hother
      exact (load_congr (hread.trans hfile.symm) rfl rfl).trans h
    | missing hasked _ => cases hasked

/-- A working directory with a default file and with a file to ask for. -/
def twoFiles (text : String) : Directory :=
  ⟨[("jsonpick.toml", .file text.toUTF8), ("own", .directory),
    ("own/pick.toml", .file "receiver = 'data'\ndefault_language = 'go'\ncolor = true".toUTF8)]⟩

/-- Colours are refused by a variable; `others` is the value of all variables that are not looked up. -/
def uncoloured (others : Option String) : Variables := fun name =>
  if name = "JSONPICK_COLOR" then some "No" else if name = "JSONPICK_RECEIVER" then none else others

/-- Receiver and language come from the file that is asked for, and the colours from the variable in front of it.
Neither the default file nor other variables matter. -/
theorem load_comes_from_own_file :
    let c : Config := ⟨"data", .go, false⟩
    load (twoFiles "receiver = 7").read (uncoloured none) (some "own/pick.toml") = .ok c ∧
      isIdentifier "data" = true ∧
      (∃ es, ∃ f : Layer, Gives (twoFiles "receiver = 7").read (some "own/pick.toml") es ∧ f.Told es ∧
        f.receiver = some "data" ∧ f.language = some .go) ∧
      load (twoFiles "receiver = 7").read (uncoloured (some "java")) (some "own/pick.toml") = .ok c ∧
      load (twoFiles "receiver = 'other'").read (uncoloured none) (some "own/pick.toml") = .ok c := by
  intro c
  have hload : load (twoFiles "receiver = 7").read (uncoloured none) (some "own/pick.toml") = .ok c := by
    decide +kernel
  have hfile : Directory.entry? (twoFiles "receiver = 7") [defaultFile] ≠ some .directory := nofun
  have hplace : (twoFiles "receiver = 7").Leads [] (components "own/pick.toml") ["pick.toml", "own"] :=
    .down rfl (by decide) (by decide) (by decide) (.down rfl (by decide) (by decide) (by decide) (.here _))
  obtain ⟨hreceiver, ⟨es, f, hgives, htold, hfrom⟩, -, hvariables, hdirectory⟩ := load_comes_from hload
  have hfreceiver : f.receiver.getD "j" = "data" := hfrom.receiver.symm
  have hfreceiver := (Option.getD_eq_iff.mp hfreceiver).resolve_right fun h => absurd h.2 (by decide)
  have hflanguage : f.language.getD .python = .go := hfrom.language.symm
  have hflanguage := (Option.getD_eq_iff.mp hflanguage).resolve_right fun h => absurd h.2 (by decide)
  refine ⟨hload, hreceiver, ⟨es, f, hgives, htold, hfreceiver, hflanguage⟩, hvariables _ _ rfl rfl rfl,
    hdirectory _ _ _ rfl rfl hfile rfl fun hother => ?_⟩
  exact absurd (hplace.unique hother) (by decide)

end JsonSelect.Config
