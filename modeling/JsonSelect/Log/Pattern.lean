/-! # Patterns

The value of a field is asked for by a number or by a pattern, which is a regular expression without
letter classes of Unicode. There are no spans whose values could match, so all that counts of a pattern
is whether it is well formed. It is read by a machine: groups and sets are opened and closed, and a
repetition needs something in front of it that it repeats. A brace never closes, since the first one
that would closes the field. -/

namespace JsonSelect.Log

namespace Pattern

/-- What the next character of a pattern is read as. -/
inductive Mode where
  /-- A character of a text, or of a set if one is open. -/
  | plain
  /-- The first character of a group. -/
  | groupStart
  /-- A flag of a group. -/
  | flag
  /-- A character of the name of a group. -/
  | groupName
  /-- The first character of a set, perhaps behind a caret. -/
  | setStart (negated : Bool)
  /-- The character behind a backslash. -/
  | escape
  /-- A hexadecimal digit, with so many more to come. -/
  | digit (more : Nat)
deriving DecidableEq, Repr

/-- How much of a pattern has been read. -/
structure State where
  groups : Nat
  sets : Nat
  /-- Whether there is something to repeat. -/
  operand : Bool
  mode : Mode
deriving DecidableEq, Repr

namespace State

/-- Nothing has been read. -/
def start : State := ⟨0, 0, false, .plain⟩

/-- Whether a pattern may end. -/
def isDone (s : State) : Bool := s.groups = 0 && s.sets = 0 && s.mode = .plain

/-- Reads a character of a text. -/
def readText (s : State) (c : Char) : Option State :=
  match c with
  | '(' => some { s with groups := s.groups + 1, operand := false, mode := .groupStart }
  | ')' => if s.groups = 0 then none else some { s with groups := s.groups - 1, operand := true }
  | '|' => some { s with operand := false }
  | '*' | '+' | '?' => if s.operand then some s else none
  | '\x7b' => none
  | '[' => some { s with sets := 1, mode := .setStart false }
  | '\\' => some { s with mode := .escape }
  | _ => some { s with operand := true }

/-- Reads a character of a set. -/
def readMember (s : State) (c : Char) : State :=
  match c with
  | '[' => { s with sets := s.sets + 1, mode := .setStart false }
  | ']' => { s with sets := s.sets - 1, operand := true }
  | '\\' => { s with mode := .escape }
  | _ => s

/-- Reads the character behind a backslash. -/
def readEscape (s : State) (c : Char) : Option State :=
  let whole : State := { s with operand := true, mode := .plain }
  if c = 'x' then some { s with mode := .digit 1 }
  else if c = 'u' then some { s with mode := .digit 3 }
  else if c = 'U' then some { s with mode := .digit 7 }
  else if "aftnrv".contains c then some whole
  else if c = 'A' || c = 'z' then if s.sets = 0 then some whole else none
  else if c.isAlphanum || c = '<' || c = '>' || 0x80 ≤ c.toNat then none
  else some whole

/-- Reads a flag of a group or the character behind the flags. -/
def readFlag (s : State) (c : Char) : Option State :=
  match c with
  | 'm' | 's' | 'U' | 'u' | 'x' | 'R' | '-' => some s
  | 'P' | '<' => some { s with mode := .groupName }
  | ':' => some { s with mode := .plain }
  | ')' => some { s with groups := s.groups - 1, mode := .plain }
  | _ => none

/-- Reads a character. -/
def read (s : State) (c : Char) : Option State :=
  match s.mode with
  | .plain => if s.sets = 0 then s.readText c else some (s.readMember c)
  | .groupStart =>
    if c = '?' then some { s with mode := .flag } else { s with mode := .plain }.readText c
  | .flag => s.readFlag c
  | .groupName =>
    if c = '>' then some { s with mode := .plain }
    else if c.isAlphanum || c = '_' || c = '<' then some s
    else none
  | .setStart negated =>
    if c = '^' && !negated then some { s with mode := .setStart true }
    else if c = ']' then some { s with mode := .plain }
    else some ({ s with mode := .plain }.readMember c)
  | .escape => s.readEscape c
  | .digit more =>
    if c.isDigit || ('a' ≤ c && c ≤ 'f') || ('A' ≤ c && c ≤ 'F') then
      match more with
      | 0 => some { s with operand := true, mode := .plain }
      | more + 1 => some { s with mode := .digit more }
    else none

end State

/-- Whether a text is a pattern. -/
def isWellFormed (cs : List Char) : Bool := (cs.foldlM State.read .start).any State.isDone

/-- Whether a text is a number without a sign, or the name of what is none. -/
def isNumber (cs : List Char) : Bool :=
  let whole := cs.takeWhile Char.isDigit
  let behind := cs.drop whole.length
  let places := if behind.head? = some '.' then (behind.drop 1).takeWhile Char.isDigit else []
  let rest := if behind.head? = some '.' then behind.drop (places.length + 1) else behind
  let exponent := match rest with
    | [] => true
    | e :: '+' :: ds | e :: '-' :: ds | e :: ds =>
      (e = 'e' || e = 'E') && !ds.isEmpty && ds.all Char.isDigit
  (["inf", "infinity", "nan"].contains (String.ofList (cs.map Char.toLower))) ||
    (!(whole ++ places).isEmpty && exponent)

/-- Whether a text asks for values. -/
def isValue : List Char → Bool
  | '+' :: cs => isNumber cs
  | cs => isWellFormed cs

end Pattern

end JsonSelect.Log
