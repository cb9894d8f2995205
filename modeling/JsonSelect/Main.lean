import JsonSelect.Program.Run

/-! # The command line

Reads what the program depends on from the operating system and writes what it does. A shell is run
line by line, so that its prompts and answers show as they come. Whether there is a terminal is asked of
standard output, for both streams. -/

namespace JsonSelect.Main

open Program

/-- Why the operating system does not read a file. -/
def fileFault : IO.Error → FileFault
  | .noFileOrDirectory .. => .missing
  | .inappropriateType _ 21 _ => .directory
  | .inappropriateType .. => .throughFile
  | .invalidArgument _ code details => if code = 36 ∨ -code = 36 then .nameTooLong else .system details
  | .permissionDenied .. => .system "Permission denied (os error 13)"
  | e => .system (toString e)

/-- What the operating system gives for a file. -/
def readFile (name : String) : IO (Except FileFault ByteArray) := do
  if '\x00' ∈ name.toList then return .error .badName
  try
    return .ok (← IO.FS.readBinFile name)
  catch e => return .error (fileFault e)

/-- What the operating system gives for some files. -/
def readFiles (names : List String) : IO Files := do
  let contents ← names.mapM fun name => return (name, ← readFile name)
  return fun name => (contents.lookup name).getD (.error .missing)

/-- The variables that the program looks at. -/
def variableNames : List String :=
  [Config.receiverVariable, Config.colourVariable, forceVariable, noColourVariable, logVariable]

/-- The variables that the program looks at, with their values. -/
def readVariables : IO Variables := do
  let values ← variableNames.filterMapM fun name => return (← IO.getEnv name).map (name, ·)
  return fun name => values.lookup name

/-- Reads a stream to its end, behind the bytes `begun`. -/
partial def readAll (stream : IO.FS.Stream) (begun : ByteArray) : IO ByteArray := do
  let chunk ← stream.read 65536
  if chunk.isEmpty then return begun else readAll stream (begun ++ chunk)

/-- Reads a stream to the end of its line, behind the bytes `begun`. -/
partial def readLine (stream : IO.FS.Stream) (begun : ByteArray) : IO ByteArray := do
  let byte ← stream.read 1
  let bytes := begun ++ byte
  if byte.isEmpty || byte == ⟨#['\n'.toUInt8]⟩ then return bytes else readLine stream bytes

/-- Writes an outcome and ends with its code. -/
def finish (o : Outcome) : IO UInt32 := do
  (← IO.getStdout).putStr o.output
  (← IO.getStderr).putStr o.errors
  return o.exitCode.toUInt32

/-- Runs a shell line by line. -/
partial def converse (s : Surroundings) (colour : Bool) (shell : Shell) : IO UInt32 := do
  let output ← IO.getStdout
  let errors ← IO.getStderr
  output.putStr Shell.prompt
  output.flush
  match Shell.inputLines (← readLine (← IO.getStdin) ByteArray.empty) with
  | some line :: _ =>
    let files ← readFiles (Shell.fileOf? line).toList
    errors.putStr (logText s.environment (shell.history files [some line]))
    let (next, shown) := shell.turn files colour line
    output.putStr shown
    match next with
    | some shell => converse s colour shell
    | none => return 0
  | none :: _ =>
    errors.putStr Trouble.brokenCommands.text
    return 1
  | [] =>
    output.putStr "\n"
    return 0

/-- Carries out a request. -/
def serve (r : Request) : IO UInt32 := do
  let files ← readFiles [r.input, r.config.getD Config.defaultFile]
  let reads := r.readsInput && !r.interactive
  let input ← if reads then readAll (← IO.getStdin) ByteArray.empty else pure ByteArray.empty
  let terminal ← (← IO.getStdout).isTty
  let s : Surroundings := ⟨files, ← readVariables, input, terminal⟩
  if r.interactive then
    let errors ← IO.getStderr
    errors.putStr (logText s.environment (openingRecords s r))
    match opening s r with
    | .ok o =>
      errors.putStr (o.report r.input)
      converse s o.colour (o.shell r)
    | .error t =>
      errors.putStr t.text
      return 1
  else finish (perform s r)

/-- Answers the words instead of carrying out a request. -/
def answer (a : CommandLine.Answer) : IO UInt32 := do
  let terminal ← (← IO.getStdout).isTty
  finish (reply (paintsAnswers (← readVariables) terminal) a)

end JsonSelect.Main

/-- Runs the program on the words of its command line. -/
def main (words : List String) : IO UInt32 :=
  match JsonSelect.Program.Request.read words with
  | .ok r => JsonSelect.Main.serve r
  | .error a => JsonSelect.Main.answer a
