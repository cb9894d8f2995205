import JsonSelect.Text.Paint

/-! # Phrases

A phrase is a text in pieces, each of which may be set off by how it is painted. It is written with
paint or without; the letters are the same. -/

namespace JsonSelect.Text

/-- What a piece of a phrase is, as far as it is set off. -/
inductive Accent where
  | plain
  /-- A heading. -/
  | heading
  /-- A word as it is typed. -/
  | literal
  /-- A sign that something is wrong. -/
  | alarm
  /-- What would be right. -/
  | valid
  /-- What is wrong. -/
  | invalid
deriving DecidableEq, Repr

/-- The parameters of the escape sequences that begin an accent. -/
def Accent.codes : Accent → List String
  | .plain => []
  | .heading => ["1", "4"]
  | .literal => ["1"]
  | .alarm => ["1", Colour.red.code]
  | .valid => [Colour.green.code]
  | .invalid => [Colour.yellow.code]

/-- A text with an accent. -/
structure Fragment where
  accent : Accent
  text : String
deriving DecidableEq, Repr

/-- A piece as it is written. -/
def Fragment.write (painted : Bool) (p : Fragment) : String :=
  if painted && p.accent != .plain then
    String.join (p.accent.codes.map escapeSequence) ++ p.text ++ escapeSequence "0"
  else p.text

/-- A text in pieces. -/
structure Phrase where
  fragments : List Fragment
deriving DecidableEq, Repr

namespace Phrase

instance : Append Phrase := ⟨fun p q => ⟨p.fragments ++ q.fragments⟩⟩

/-- No text. -/
def none : Phrase := ⟨[]⟩

/-- Phrases one behind the other. -/
def join (ps : List Phrase) : Phrase := ⟨ps.flatMap (·.fragments)⟩

/-- Phrases with another one between any two. -/
def intercalate (between : Phrase) (ps : List Phrase) : Phrase :=
  ⟨between.fragments.intercalate (ps.map (·.fragments))⟩

/-- A text that is not set off. -/
def plain (s : String) : Phrase := ⟨[⟨.plain, s⟩]⟩

/-- A heading. -/
def heading (s : String) : Phrase := ⟨[⟨.heading, s⟩]⟩

/-- A word as it is typed. -/
def literal (s : String) : Phrase := ⟨[⟨.literal, s⟩]⟩

/-- A sign that something is wrong. -/
def alarm (s : String) : Phrase := ⟨[⟨.alarm, s⟩]⟩

/-- What would be right. -/
def valid (s : String) : Phrase := ⟨[⟨.valid, s⟩]⟩

/-- What is wrong. -/
def invalid (s : String) : Phrase := ⟨[⟨.invalid, s⟩]⟩

/-- A phrase between apostrophes. -/
def quoted (p : Phrase) : Phrase := plain "'" ++ p ++ plain "'"

/-- The letters of a phrase. -/
def text (p : Phrase) : String := String.join (p.fragments.map (·.text))

/-- A phrase as it is written. -/
def write (painted : Bool) (p : Phrase) : String := String.join (p.fragments.map (·.write painted))

/-- Phrases with a blank between any two; empty ones are left out. -/
def words (ps : List Phrase) : Phrase := intercalate (plain " ") (ps.filter fun p => p.text != "")

/-- Phrases with a comma between any two. -/
def listed (ps : List Phrase) : Phrase := intercalate (plain ", ") ps

/-- A phrase filled up with blanks to `width` letters. -/
def fill (width : Nat) (p : Phrase) : Phrase :=
  p ++ plain ("".pushn ' ' (width - p.text.length))

end Phrase

theorem Fragment.write_false (f : Fragment) : f.write false = f.text := by
  simp [Fragment.write]

theorem Phrase.write_false (p : Phrase) : p.write false = p.text := by
  simp [Phrase.write, Phrase.text, Fragment.write_false]

end JsonSelect.Text
