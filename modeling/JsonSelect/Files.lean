import JsonSelect.Text.Encoding
import JsonSelect.Text.Parts

/-! # Files

Files are read by the names they are given. A `Directory` lists what a working directory holds;
`Directory.read` follows a name through it one component after the other, as an operating system
does. -/

namespace JsonSelect

/-- Why a file cannot be read. -/
inductive FileFault where
  | missing
  /-- The name leads through a file as if it were a directory. -/
  | throughFile
  | directory
  | nameTooLong
  /-- The name is none that a file can have. -/
  | badName
  /-- Something else, in the words of the operating system. -/
  | system (message : String)
deriving DecidableEq, Repr

/-- The wording of a fault. -/
def FileFault.message : FileFault → String
  | .missing => "No such file or directory (os error 2)"
  | .throughFile => "Not a directory (os error 20)"
  | .directory => "Is a directory (os error 21)"
  | .nameTooLong => "File name too long (os error 36)"
  | .badName => "file name contained an unexpected NUL byte"
  | .system message => message

/-- What reading files by their names gives. Names are texts, and what is read does not change. -/
abbrev Files := String → Except FileFault ByteArray

/-- Whether a name is that of a file. Whatever can be read counts as a file, pipes and devices too, and so does
what the operating system refuses to read. -/
def Files.holds (files : Files) (name : String) : Bool :=
  match files name with
  | .ok _ => true
  | .error (.system _) => true
  | .error _ => false

/-- Why a file cannot be read as text. -/
inductive TextFault where
  | unreadable (fault : FileFault)
  | notText
deriving DecidableEq, Repr

/-- The wording of a fault. -/
def TextFault.message : TextFault → String
  | .unreadable fault => fault.message
  | .notText => Text.notText

/-- The text of a file. -/
def Files.text (files : Files) (name : String) : Except TextFault String :=
  match files name with
  | .error fault => .error (.unreadable fault)
  | .ok bytes =>
    match Text.ofBytes bytes with
    | .ok s => .ok s
    | .error _ => .error .notText

/-! ### Names -/

/-- The components of a name. -/
def components (name : String) : List String := (Text.parts '/' name.toList).map String.ofList

/-- The last component of a name, unless it leads back up or there is none. Empty components and those
that stay where they are do not count. -/
def fileName? (name : String) : Option String :=
  match ((components name).filter fun c => c != "" && c != ".").getLast? with
  | some ".." => none
  | some c => some c
  | none => none

/-- A file name cut at its last point, which does not count in front. -/
def splitExtension (file : String) : String × Option String :=
  let cs := file.toList
  let behind := cs.reverse.takeWhile (· ≠ '.')
  let before := (cs.reverse.drop (behind.length + 1)).reverse
  if before.isEmpty then (file, none)
  else (String.ofList before, some (String.ofList behind.reverse))

/-- The file name of a name without its extension. -/
def fileStem? (name : String) : Option String := (fileName? name).map fun f => (splitExtension f).1

/-- The extension of a name. -/
def extension? (name : String) : Option String := (fileName? name).bind fun f => (splitExtension f).2

/-! ### Directories -/

/-- What a name in a directory stands for. -/
inductive Entry where
  | file (bytes : ByteArray)
  | directory

/-- What a working directory holds, by names relative to it. -/
structure Directory where
  entries : List (String × Entry)

namespace Directory

/-- What the name made of the components `place`, latest first, stands for. The directory itself has
no components. -/
def entry? (d : Directory) (place : List String) : Option Entry :=
  if place.isEmpty then some .directory
  else (d.entries.find? (·.1 == "/".intercalate place.reverse)).map (·.2)

/-- The longest component that a name may have, in bytes. -/
def longestComponent : Nat := 255

/-- The longest name, in bytes. -/
def longestName : Nat := 4095

/-- What components lead to that follow a directory which is not in `d`: only those that stay where
they are or lead further up lead to anything. -/
def followOutside : List String → Except FileFault Entry
  | [] => .ok .directory
  | c :: cs =>
    if c = "" ∨ c = "." ∨ c = ".." then followOutside cs
    else if longestComponent < c.utf8ByteSize then .error .nameTooLong
    else .error .missing

/-- What components that follow the place `place` lead to. Every place that something follows has to
be a directory. -/
def follow (d : Directory) (place : List String) : List String → Except FileFault Entry
  | [] => (d.entry? place).elim (.error .missing) .ok
  | c :: cs =>
    match d.entry? place with
    | none => .error .missing
    | some (.file _) => .error .throughFile
    | some .directory =>
      if c = "" ∨ c = "." then d.follow place cs
      else if c = ".." then
        match place with
        | [] => followOutside cs
        | _ :: place => d.follow place cs
      else if longestComponent < c.utf8ByteSize then .error .nameTooLong
      else d.follow (c :: place) cs

/-- Reads a file of a directory. What lies outside the directory holds no files. -/
def read (d : Directory) : Files := fun name =>
  if '\x00' ∈ name.toList then .error .badName
  else if name.isEmpty then .error .missing
  else if longestName < name.utf8ByteSize then .error .nameTooLong
  else
    let outside := name.toList.head? = some '/'
    match if outside then followOutside (components name) else d.follow [] (components name) with
    | .ok (.file bytes) => .ok bytes
    | .ok .directory => .error .directory
    | .error fault => .error fault

end Directory

end JsonSelect
