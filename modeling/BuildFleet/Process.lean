import BuildFleet.CommandLine
import BuildFleet.LogFilter
import BuildFleet.Run

/-!
# Processes

A run as it is started: from the words of a command line, the variables of the environment, the
standard input and the files, to an exit code, the standard output and what is said on the side.

The standard output carries the ids, or the text that a flag asks for, and nothing else.  The events
that the log filter shows, and the error at the end if there is one, are diagnostics.
-/

namespace BuildFleet

/-- How the program is started. -/
structure Invocation where
  words : List String
  environment : CommandLine.Environment := {}
  /-- The variable of the log filter. -/
  log : Option String := none
  stdin : Json.Input
  files : Files

/-- What is said on the side. -/
inductive Diagnostic where
  | logged (event : Event)
  | usage (error : CommandLine.UsageError)
  | failed (failure : RunFailure)
  deriving DecidableEq

/-- What a process leaves behind. -/
structure Outcome where
  exitCode : Nat
  stdout : String
  diagnostics : List Diagnostic
  deriving DecidableEq

namespace Diagnostic

/-- A character of a logged message: those that begin a terminal command are written out. -/
def logChar (c : Char) : List Char :=
  if c == '\x1b' || c == '\x07' || c == '\x08' || c == '\x0c' || c == '\x7f' then
    let digits := Nat.toDigits 16 c.toNat
    '\\' :: 'x' :: List.replicate (2 - digits.length) '0' ++ digits
  else if 0x80 ≤ c.toNat && c.toNat ≤ 0x9f then
    Text.Quoted.codePoint c
  else
    [c]

/-- The text of a diagnostic, on as many lines as there are line feeds in it. -/
def text : Diagnostic → String
  | .logged event =>
    let message := String.ofList (event.message.toList.flatMap logChar)
    s!"{event.level.text} {event.target}: {message}"
  | .usage error => error.line
  | .failed failure => s!"error: {failure.message}"

end Diagnostic

namespace Invocation

/-- The run of a command line that was understood. -/
def runArguments (i : Invocation) (args : Arguments) : Attempt RunFailure Unit := do
  let settings ← Attempt.ofExcept (args.settings.mapError .arguments)
  Attempt.log [.configured settings]
  run { files := i.files, stdin := i.stdin } settings

/-- What the process leaves behind, where this filter tells which events are shown. -/
def outcomeWith (i : Invocation) (filter : LogFilter) : Outcome :=
  let shown (events : List Event) : List Diagnostic :=
    (events.filter filter.shows).map .logged
  match CommandLine.read i.environment i.words with
  | .error (.asked flag) => ⟨0, flag.text i.environment, []⟩
  | .error (.wrong error) => ⟨1, "", [.usage error]⟩
  | .ok args =>
    let attempt := i.runArguments args
    match attempt.outcome with
    | .ok () => ⟨0, attempt.output, shown attempt.events⟩
    | .error failure => ⟨1, attempt.output, shown attempt.events ++ [.failed failure]⟩

/-- What a process leaves behind that breaks down before it has begun. -/
def brokenDown : Outcome :=
  ⟨101, "", []⟩

/-- What the process leaves behind.  A torn log filter breaks it down. -/
def outcome (i : Invocation) : Outcome :=
  match LogFilter.ofVariable? i.log with
  | some filter => i.outcomeWith filter
  | none => brokenDown

end Invocation

end BuildFleet
