import JsonSelect.Toml.Value

/-! # TOML documents

A document is a sequence of lines: an entry, a header or nothing, each perhaps with a comment. Entries
go into the table of the header before them, and into the document itself before the first header. A
table is put into the document when its lines end. -/

namespace JsonSelect.Toml

/-- The table whose lines are being read. -/
structure Section where
  /-- The path to the table; empty for the document itself. -/
  path : List Key
  /-- Whether the table is one of an array. -/
  inArray : Bool
  span : Option Span
  entries : Entries
deriving Repr

/-- What has been read of a document. -/
structure Draft where
  /-- The document without the table that is being read. -/
  root : Entries
  current : Section
deriving Repr

namespace Draft

/-- Nothing has been read. -/
def start : Draft := ⟨[], ⟨[], false, none, []⟩⟩

/-- The names of a path. -/
def names (path : List Key) : List String := path.map (·.name)

/-- The keys of a path in front of the last one, and that one. -/
def splitLast? (path : List Key) : Option (List Key × Key) :=
  path.getLast?.map fun last => (path.dropLast, last)

/-- Changes the entries of the table at a path of the document by `f`. -/
def within (root : Entries) (path : List Key) (f : Entries → Except Misfit Entries) :
    Except Misfit Entries := do
  let t ← Growing.grow (fun t => do return { t with entries := ← f t.entries }) .header [] path
    ⟨.header, root⟩
  return t.entries

/-- There is something else under the last key of a header; it is spoken of as it would be written. -/
def taken (path : List Key) (last : Key) : Misfit :=
  .duplicate (keyText last.name) (some (names path))

/-- The span from the first of some tables to the last. -/
def wholeSpan (tables : List (Option Span × Entries)) : Option Span := do
  let first ← (← tables.head?).1
  let last ← (← tables.getLast?).1
  return ⟨first.start, last.stop⟩

/-- Puts the table of a section under its key. -/
def put (s : Section) (path : List Key) (last : Key) (entries : Entries) : Except Misfit Entries :=
  match entries.find? last.name, s.inArray with
  | some (.tables _ ts), true =>
    let ts := ts ++ [(s.span, s.entries)]
    .ok (entries.replace last.name (.tables (wholeSpan ts) ts))
  | none, true => .ok (entries ++ [(last, .tables s.span [(s.span, s.entries)])])
  | none, false => .ok (entries ++ [(last, .table s.span .header s.entries)])
  | some _, _ => .error (taken path last)

/-- The document with the table that is being read in its place. -/
def finish (d : Draft) : Except Misfit Entries :=
  match splitLast? d.current.path with
  | none => .ok d.current.entries
  | some (path, last) => within d.root path (put d.current path last)

/-- Adds an entry to the table that is being read. -/
def addEntry (d : Draft) (path : List Key) (last : Key) (item : Item) : Except Misfit Draft := do
  let entries ← d.current.entries.insert .dotted (some (names d.current.path)) path last item
  let span := match d.current.span, item.span? with
    | some known, some new => some ⟨known.start, new.stop⟩
    | known, _ => known
  return { d with current := { d.current with span, entries } }

/-- The item under the key `last` of the table at a path. -/
def itemAt? (entries : Entries) (path : List Key) (last : Key) : Option Item :=
  match path with
  | [] => entries.find? last.name
  | key :: path =>
    match entries.find? key.name with
    | some (.table _ _ inner) => itemAt? inner path last
    | some (.tables _ ts) => itemAt? ((ts.getLast?.map (·.2)).getD []) path last
    | _ => none

/-- Starts the table of a header at `span`. Before it, headers may have led through the table, whose
entries it keeps; anything else under its key is in the way. -/
def startTable (d : Draft) (path : List Key) (last : Key) (span : Span) : Except Misfit Draft := do
  let before ← d.finish
  let root ← within before path fun entries =>
    match entries.find? last.name with
    | none | some (.table _ .implied _) => .ok (entries.drop last.name)
    | some _ => .error (taken path last)
  let kept := match itemAt? before path last with
    | some (.table _ _ inner) => inner
    | _ => []
  return ⟨root, ⟨path ++ [last], false, some span, kept⟩⟩

/-- Starts one more table of the array of a header at `span`. -/
def startArrayTable (d : Draft) (path : List Key) (last : Key) (span : Span) :
    Except Misfit Draft := do
  let root ← d.finish
  let root ← within root path fun entries =>
    match entries.find? last.name with
    | none => .ok (entries ++ [(last, .tables none [])])
    | some (.tables _ _) => .ok entries
    | some _ => .error (taken path last)
  return ⟨root, ⟨path ++ [last], true, some span, []⟩⟩

end Draft

/-! ### Lines -/

namespace Reader

/-- Goes on with what fits, or refuses what was read from `start`. -/
def fitting (start : Nat) (outcome : Except Misfit Draft) : Reader Draft :=
  match outcome with
  | .ok d => return d
  | .error misfit => reject start misfit.message

/-- An entry. -/
def entryLine (d : Draft) : Reader Draft := do
  let start ← offset
  let (path, last) ← key
  keySign
  blanks
  let item ← value
  lineRest
  fitting start (d.addEntry path last item)

/-- A header. -/
def headerLine (d : Draft) : Reader Draft :=
  about "table header" do
    let start ← offset
    if (← rest).length < 2 then fail
    let inArray ← sees "[["
    skip (if inArray then 2 else 1)
    let (path, last) ← key
    let closing := if inArray then "]]" else "]"
    expecting ["`.`", "`" ++ closing ++ "`"] (require closing)
    let span := ⟨start, ← offset⟩
    lineRest
    fitting start <|
      if inArray then d.startArrayTable path last span else d.startTable path last span

/-- The next line. -/
def line (d : Draft) : Reader Draft := do
  match ← peek with
  | none => fail
  | some c =>
    if c = '#' then
      committed do
        comment
        lineEnd
      return d
    else if c = '[' then committed (headerLine d)
    else if c = '\n' || c = '\r' then
      lineBreak
      return d
    else committed (entryLine d)

/-- All lines that can be read, at most `n` of them. -/
def lines (d : Draft) : Nat → Reader Draft
  | 0 => return d
  | n + 1 => do
    blanks
    match ← attempt (line d) with
    | none => return d
    | some d => lines d n

/-- A whole document. A byte order mark may stand in front of it. -/
def document : Reader Entries := do
  let _ ← accept "\ufeff"
  let d ← lines .start ((← rest).length + 1)
  textEnd
  match d.finish with
  | .ok entries => return entries
  | .error misfit => reject (← offset) misfit.message

end Reader

/-- The entries of a TOML text, or what is wrong with it. -/
def read (source : String) : Except Fault Entries :=
  let cs := source.toList
  match Reader.document.run ⟨0, cs⟩ with
  | .ok (entries, _) => .ok entries
  | .error f => .error (f.fault cs)

end JsonSelect.Toml
