import NoteMarkup.CommandLine.Command
import Std.Time

/-!
The program: the command on the system that it runs on.
-/

namespace NoteMarkup

/-- What is left of a stream. -/
partial def readRest (stream : IO.FS.Stream) (octets : ByteArray) : IO ByteArray := do
  let more ← stream.read 65536
  if more.isEmpty then return octets else readRest stream (octets ++ more)

/-- What an action gives, or the wording of its failure. -/
def attempt {α : Type} (act : IO α) : IO (Except String α) := do
  match ← act.toBaseIO with
  | .ok a => return .ok a
  | .error e => return .error (toString e)

/-- The number of the failure that a path has too many links. -/
def loopNumber : UInt32 := 40

/-- Whether a failure says that nothing stands at a path. -/
def meansAbsent : IO.Error → Bool
  | .noFileOrDirectory .. | .inappropriateType .. => true
  | .invalidArgument _ number _ => number == loopNumber
  | _ => false

/-- The system is a host. A link stands for what it leads to. -/
instance : Host IO where
  resolve p := attempt do
    let directory := Path.ofString (← IO.currentDir).toString
    let path := Path.resolve directory p
    match ← (IO.FS.realPath path.text).toBaseIO with
    | .ok place => return Path.ofString place.toString
    | .error _ => return path
  isFile p := do
    match ← (do (← IO.FS.realPath p.text).metadata).toBaseIO with
    | .ok found => return .ok (found.type == .file)
    | .error e => return if meansAbsent e then .ok false else .error (toString e)
  read p := do return (← attempt (IO.FS.readBinFile p.text)).map fun octets => octets.toList
  write p text := attempt (IO.FS.writeFile p.text text)
  append p text := attempt (IO.FS.withFile p.text .append fun file => file.putStr text)
  input := do
    match ← attempt (do readRest (← IO.getStdin) .empty) with
    | .error cause => return .error (.unreadable CommandLine.standardInput cause)
    | .ok octets =>
      match Text.ofOctets octets.toList with
      | .ok text => return .ok (String.ofList (Text.normalizeLines text))
      | .error f => return .error (.undecodable f)
  print text := IO.print text
  printError text := IO.eprint text
  time := do return (← Std.Time.PlainDateTime.now).format "uuuu-MM-dd HH:mm:ss"
  wording cause := pure cause

end NoteMarkup

/-- Runs the command. A failure that no part reports ends the program with its message. -/
def main (arguments : List String) : IO UInt32 := do
  match ← NoteMarkup.CommandLine.run (m := IO) arguments with
  | .ok code => return code.toUInt32
  | .error f =>
    IO.eprintln f.message
    return 1
