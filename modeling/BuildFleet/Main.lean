import BuildFleet.Process

/-!
# The program

Collects what an invocation needs from the system, and hands out what it leaves behind.  Files are
read once the command line has told which ones are meant.
-/

namespace BuildFleet.Program

/-- The system's error of a number, which may come with a minus in front. -/
def errorOfNumber (number : UInt32) : SystemError :=
  match min number.toNat (-number).toNat with
  | 2 => .notFound
  | 13 => .notPermitted
  | 20 => .notADirectory
  | 21 => .isADirectory
  | 36 => .nameTooLong
  | n => .unknown n

/-- The system's error behind a failed request. -/
def systemError : IO.Error → SystemError
  | .alreadyExists _ number _ | .otherError number _ | .resourceBusy number _
  | .resourceVanished number _ | .unsupportedOperation number _ | .hardwareFault number _
  | .unsatisfiedConstraints number _ | .illegalOperation number _ | .protocolError number _
  | .timeExpired number _ | .interrupted _ number _ | .noFileOrDirectory _ number _
  | .invalidArgument _ number _ | .permissionDenied _ number _ | .resourceExhausted _ number _
  | .inappropriateType _ number _ | .noSuchThing _ number _ => errorOfNumber number
  | .unexpectedEof | .userError _ => .unknown 0

/-- All bytes of a stream, and how it ends.  A read that was interrupted is made again. -/
partial def readAll (stream : IO.FS.Stream) (done : ByteArray) : IO Json.Input := do
  match ← (stream.read 65536).toBaseIO with
  | .error (.interrupted ..) => readAll stream done
  | .error e => return .failingAfter done.data.toList (systemError e)
  | .ok chunk =>
    if chunk.isEmpty then return .ofBytes done.data.toList
    else readAll stream (done ++ chunk)

/-- The contents of a file; of a directory, that there are none. -/
def readFile (path : String) : IO (Except SystemError Json.Input) := do
  if path.toList.contains '\x00' then
    return .error .nulInName
  match ← (IO.FS.readBinFile path).toBaseIO with
  | .ok bytes => return .ok (.ofBytes bytes.data.toList)
  | .error e =>
    match systemError e with
    | .isADirectory => return .ok (.failingAfter [] .isADirectory)
    | error => return .error error

/-- The files that the arguments name. -/
def readFiles (args : Arguments) : IO Files := do
  let paths := args.machines.toList ++ args.input.toList
  let contents ← paths.mapM fun path => do return (path, ← readFile path)
  return fun path => (contents.lookup path).getD (.error .notFound)

/-- The standard input, if a run with these arguments reads it. -/
def readStdin (args : Arguments) : IO Json.Input := do
  match args.settings?.map Settings.input with
  | some .stdin => readAll (← IO.getStdin) .empty
  | _ => return .ofBytes []

end BuildFleet.Program

open BuildFleet in
def main (words : List String) : IO UInt32 := do
  let environment : CommandLine.Environment :=
    ⟨← IO.getEnv "SCW_MACHINES_FILE", ← IO.getEnv "SCW_RUNNERS_INPUT"⟩
  let args := (CommandLine.read environment words).toOption.getD {}
  let invocation : Invocation :=
    { words
      environment
      log := ← IO.getEnv "RUST_LOG"
      stdin := ← Program.readStdin args
      files := ← Program.readFiles args }
  let outcome := invocation.outcome
  for diagnostic in outcome.diagnostics do
    IO.eprintln diagnostic.text
  IO.print outcome.stdout
  return outcome.exitCode.toUInt32
