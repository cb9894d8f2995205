import JsonSelect.Toml.Item

/-! # TOML tables

A table grows by entries and by the tables of headers. Going down a path makes the tables that are
missing on it; a table that was finished by its own header or by braces takes no dotted keys, and what
is no table cannot be entered.

* `Entries.grow`: changes the table at the end of a path.
* `Entries.insert`: adds an entry behind a dotted key. -/

namespace JsonSelect.Toml

/-- Why an entry or a header does not fit. -/
inductive Misfit where
  /-- There is an item under the key in the table at `table`, or in some table. -/
  | duplicate (key : String) (table : Option (List String))
  /-- The path leads through an item that is no table. -/
  | noTable (path : List String) (sortName : String)
deriving DecidableEq, Repr

/-- The wording of a misfit. -/
def Misfit.message : Misfit → String
  | .duplicate key none => s!"duplicate key `{key}`"
  | .duplicate key (some []) => s!"duplicate key `{key}` in document root"
  | .duplicate key (some table) =>
    "duplicate key `" ++ key ++ "` in table `" ++ ".".intercalate table ++ "`"
  | .noTable path sortName =>
    "dotted key `" ++ ".".intercalate path ++ "` attempted to extend non-table type (" ++
      sortName ++ ")"

/-- A table that is being changed: how it came about, and its entries. -/
structure Growing where
  origin : Origin
  entries : Entries
deriving Repr

/-- Whether a table may get entries from dotted keys that lead through it. -/
def Origin.isOpen : Origin → Bool
  | .implied | .dotted => true
  | .header | .braces => false

/-- The last of some tables changed by `f`. -/
def changeLast (f : Entries → Except Misfit Entries) :
    List (Option Span × Entries) → Except Misfit (List (Option Span × Entries))
  | [] => .ok []
  | [t] => do return [(t.1, ← f t.2)]
  | t :: ts => do return t :: (← changeLast f ts)

/-- What kind of path leads to a table. -/
inductive Route where
  /-- That of a header. -/
  | header
  /-- A dotted key. -/
  | dotted
  /-- A dotted key between braces. -/
  | braced
deriving DecidableEq, Repr

/-- How a table comes about that is missing on a path. -/
def Route.origin : Route → Origin
  | .header => .implied
  | .dotted | .braced => .dotted

/-- Changes the table at the end of a path by `f`. `done` is the path so far. Between braces, a finished
table is one that has its entries; elsewhere, a table between braces is no table to go through. -/
def Growing.grow (f : Growing → Except Misfit Growing) (route : Route) (done : List String) :
    List Key → Growing → Except Misfit Growing
  | [], t => f t
  | key :: path, t => do
    let go := Growing.grow f route (done ++ [key.name]) path
    match t.entries.find? key.name with
    | none =>
      let child ← go ⟨route.origin, []⟩
      return { t with entries := t.entries ++ [(key, .table none child.origin child.entries)] }
    | some (.table span origin entries) =>
      if origin = .braces && route != .braced then
        throw (.noTable (done ++ [key.name]) "inline table")
      else if route != .header && !origin.isOpen then throw (.duplicate key.name none)
      else
        let child ← go ⟨origin, entries⟩
        let item := Item.table span child.origin child.entries
        return { t with entries := t.entries.replace key.name item }
    | some (.tables span ts) =>
      let ts ← changeLast (fun es => do return (← go ⟨.header, es⟩).entries) ts
      return { t with entries := t.entries.replace key.name (.tables span ts) }
    | some item => throw (.noTable (done ++ [key.name]) item.sortName)

/-- Adds an entry to a table that is found at `place`, where `dotted` says whether a dotted key led to
it. -/
def Growing.add (place : Option (List String)) (dotted : Bool) (key : Key) (item : Item)
    (t : Growing) : Except Misfit Growing :=
  if dotted && t.origin != .dotted then .error (.duplicate key.name none)
  else if (t.entries.find? key.name).isSome then .error (.duplicate key.name place)
  else .ok { t with entries := t.entries ++ [(key, item)] }

/-- Adds an entry behind the keys `path` of a dotted key. -/
def Entries.insert (entries : Entries) (route : Route) (place : Option (List String))
    (path : List Key) (key : Key) (item : Item) : Except Misfit Entries := do
  let t ← Growing.grow (Growing.add place (!path.isEmpty) key item) route [] path ⟨.header, entries⟩
  return t.entries

/-- The entries of a table between braces, or why they do not fit together. -/
def Entries.ofBraces (found : List (List Key × Key × Item)) : Except String Entries :=
  (found.foldlM (fun (es : Entries) e => es.insert .braced none e.1 e.2.1 e.2.2) []).mapError
    Misfit.message

end JsonSelect.Toml
