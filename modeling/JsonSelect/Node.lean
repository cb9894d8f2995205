import JsonSelect.Span
import JsonSelect.Value

/-! # Nodes

A document is a tree of nodes, each with the span of its token or, for arrays and objects, from the
opening bracket to the closing one. The members of an object have distinct keys:

* `Members.put` gives a key its place at its first occurrence and its span and node at its last;
* `Members.collapse` puts members one after the other, and leaves one member for each key. -/

namespace JsonSelect

/-- The key of an object member. Its span includes the quotation marks. -/
structure Key where
  name : String
  span : Span
deriving DecidableEq, Repr

/-- A node of a document. -/
inductive Node where
  | scalar (span : Span) (s : Scalar)
  | array (span : Span) (items : List Node)
  | object (span : Span) (members : List (Key × Node))
deriving Repr

namespace Node

/-- Where a node stands in the source. -/
def span : Node → Span
  | .scalar s _ => s
  | .array s _ => s
  | .object s _ => s

/-- The kind of a node. -/
def kind : Node → Kind
  | .scalar _ s => s.kind
  | .array _ _ => .array
  | .object _ _ => .object

mutual

/-- What a node says, without spans. -/
def value : Node → Value
  | .scalar _ s => .scalar s
  | .array _ items => .array (itemValues items)
  | .object _ members => .object (memberValues members)

/-- The values of the items of an array. -/
def itemValues : List Node → List Value
  | [] => []
  | n :: ns => n.value :: itemValues ns

/-- The named values of the members of an object. -/
def memberValues : List (Key × Node) → List (String × Value)
  | [] => []
  | (key, n) :: ms => (key.name, n.value) :: memberValues ms

end

theorem itemValues_eq_map (ns : List Node) : itemValues ns = ns.map value := by
  induction ns with
  | nil => rfl
  | cons n ns ih => simp [itemValues, ih]

theorem memberValues_eq_map (ms : List (Key × Node)) :
    memberValues ms = ms.map fun m => (m.1.name, m.2.value) := by
  induction ms with
  | nil => rfl
  | cons m ms ih => simp [memberValues, ih]

theorem kind_value (n : Node) : n.value.kind = n.kind := by
  cases n <;> simp [value, kind, Value.kind]

end Node

/-! ### Members with distinct keys -/

namespace Members

/-- Adds a member: a key that is new goes last, a key that is there keeps its place and takes the new
span and node. -/
def put : List (Key × Node) → Key × Node → List (Key × Node)
  | [], m => [m]
  | m' :: ms, m => if m'.1.name = m.1.name then m :: ms else m' :: put ms m

/-- The members that remain when each key keeps its first place and its last content. -/
def collapse (ms : List (Key × Node)) : List (Key × Node) := ms.foldl put []

/-- The names of the keys, in order. -/
def names (ms : List (Key × Node)) : List String := ms.map (·.1.name)

@[simp] theorem names_nil : names [] = [] := rfl

@[simp] theorem names_cons (m : Key × Node) (ms : List (Key × Node)) :
    names (m :: ms) = m.1.name :: names ms := rfl

theorem names_put (ms : List (Key × Node)) (m : Key × Node) :
    names (put ms m) = if m.1.name ∈ names ms then names ms else names ms ++ [m.1.name] := by
  induction ms with
  | nil => simp [put]
  | cons m' ms ih =>
    by_cases h : m'.1.name = m.1.name
    · simp [put, h]
    · have h' : ¬ m.1.name = m'.1.name := fun e => h e.symm
      by_cases hm : m.1.name ∈ names ms
      · rw [if_pos hm] at ih
        simp [put, h, ih, hm]
      · rw [if_neg hm] at ih
        simp [put, h, h', ih, hm]

end Members

end JsonSelect
