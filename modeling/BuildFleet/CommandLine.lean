import BuildFleet.Settings
import BuildFleet.Text.Terminal

/-!
# Command lines

The words after the name of the program: a mode, the options `--machines` and `--input` with a value
each, and the flags for help and version.

The value of an option is the next word, unless that looks like an option itself, or follows an equals
sign.  An option is settled, and its faults are found, when the next known word comes, or the end;
so an unknown word is reported before what is wrong with the option in front of it.  After `--` all
words are plain.  An option that is not on the command line takes its value from a variable.
-/

namespace BuildFleet

namespace CommandLine

open Text.Terminal (emphasized)

/-- An option that takes a value. -/
inductive ValueOption where
  | machines
  | input
  deriving DecidableEq

/-- A word that asks for a text. -/
inductive Flag where
  | help
  | version
  deriving DecidableEq

/-- The option as it is written. -/
def ValueOption.long : ValueOption → String
  | .machines => "--machines"
  | .input => "--input"

/-- What the value of the option is called. -/
def ValueOption.placeholder : ValueOption → String
  | .machines => "<MACHINES>"
  | .input => "<INPUT>"

/-- The option with its value, as it is shown to the user. -/
def ValueOption.usage (option : ValueOption) : String :=
  s!"{option.long} {option.placeholder}"

/-- The flag as it is written. -/
def Flag.long : Flag → String
  | .help => "--help"
  | .version => "--version"

/-- The flag as it is written with one letter. -/
def Flag.short : Flag → String
  | .help => "-h"
  | .version => "-V"

def ValueOption.ofName? (name : String) : Option ValueOption :=
  if name = "machines" then some .machines
  else if name = "input" then some .input
  else none

def Flag.ofName? (name : String) : Option Flag :=
  if name = "help" then some .help
  else if name = "version" then some .version
  else none

def Flag.ofLetter? (letter : Char) : Option Flag :=
  if letter = 'h' then some .help
  else if letter = 'V' then some .version
  else none

/-- The value given for an option. -/
def ValueOption.get (option : ValueOption) (given : Arguments) : Option String :=
  match option with
  | .machines => given.machines
  | .input => given.input

def ValueOption.set (option : ValueOption) (value : String) (given : Arguments) : Arguments :=
  match option with
  | .machines => { given with machines := some value }
  | .input => { given with input := some value }

/-! ### Words -/

/-- A word by its first characters. -/
inductive Word where
  | separator
  | long (name : String) (value : Option String)
  | short (letter : Char)
  | plain
  deriving DecidableEq

/-- A name, and the value after an equals sign. -/
def splitAtEquals (word : List Char) : String × Option String :=
  let name := String.ofList (word.takeWhile (· != '='))
  match word.dropWhile (· != '=') with
  | [] => (name, none)
  | _ :: value => (name, some (String.ofList value))

/-- A lone hyphen is plain.  Of several letters after a hyphen the first decides. -/
def Word.ofText (text : String) : Word :=
  match text.toList with
  | ['-', '-'] => .separator
  | '-' :: '-' :: rest =>
    let (name, value) := splitAtEquals rest
    .long name value
  | '-' :: letter :: _ => .short letter
  | _ => .plain

/-! ### Usage errors -/

inductive UsageError where
  | unexpectedArgument (word : String)
  | unexpectedValue (value : String) (flag : Flag)
  | valueRequired (option : ValueOption)
  | usedTwice (option : ValueOption)
  deriving DecidableEq

/-- The message for a terminal, which emphasises the words that it is about. -/
def UsageError.message : UsageError → String
  | .unexpectedArgument word => s!"unexpected argument '{emphasized word}' found"
  | .unexpectedValue value flag =>
    s!"unexpected value '{emphasized value}' for '{emphasized flag.long}' found; " ++
      "no more were expected"
  | .valueRequired option =>
    s!"a value is required for '{emphasized option.usage}' but none was supplied"
  | .usedTwice option =>
    s!"the argument '{emphasized option.usage}' cannot be used multiple times"

/-- What a command line asks for instead of a run. -/
inductive Stop where
  | asked (flag : Flag)
  | wrong (error : UsageError)
  deriving DecidableEq

/-! ### Reading -/

/-- The words read so far. -/
structure Progress where
  given : Arguments := {}
  /-- An option that is not settled yet, and its value once that has come. -/
  pending : Option (ValueOption × Option String) := none
  /-- All further words are plain. -/
  trailing : Bool := false

/-- Gives an option its value: once, and not an empty one. -/
def settle (option : ValueOption) (value : Option String) (given : Arguments) :
    Except Stop Arguments :=
  match value with
  | none => .error (.wrong (.valueRequired option))
  | some value =>
    if (option.get given).isSome then .error (.wrong (.usedTwice option))
    else if value.isEmpty then .error (.wrong (.valueRequired option))
    else .ok (option.set value given)

/-- Settles the pending option. -/
def Progress.settled (p : Progress) : Except Stop Progress :=
  match p.pending with
  | none => .ok p
  | some (option, value) => do
    let given ← settle option value p.given
    .ok { p with given, pending := none }

/-- A word that stands for itself: the mode, which is one word. -/
def Progress.positional (p : Progress) (word : String) : Except Stop Progress :=
  if p.given.mode.isSome then
    .error (.wrong (.unexpectedArgument word))
  else do
    let p ← p.settled
    .ok { p with given := { p.given with mode := some word } }

/-- A plain word is the value of an option that waits for one. -/
def Progress.plain (p : Progress) (word : String) : Except Stop Progress :=
  match p.pending with
  | some (option, none) => .ok { p with pending := some (option, some word) }
  | _ => p.positional word

/-- A flag ends the reading, if nothing is wrong before it. -/
def Progress.flag (p : Progress) (flag : Flag) : Except Stop Progress := do
  let _ ← p.settled
  .error (.asked flag)

def Progress.long (p : Progress) (name : String) (value : Option String) :
    Except Stop Progress :=
  match ValueOption.ofName? name, Flag.ofName? name, value with
  | some option, _, none => do
    let p ← p.settled
    .ok { p with pending := some (option, none) }
  | some option, _, some value => do
    let p ← p.settled
    let given ← settle option (some value) p.given
    .ok { p with given }
  | none, some flag, none => p.flag flag
  | none, some flag, some value => .error (.wrong (.unexpectedValue value flag))
  | none, none, _ => .error (.wrong (.unexpectedArgument ("--" ++ name)))

/-- Reads one word. -/
def Progress.read (p : Progress) (word : String) : Except Stop Progress :=
  if p.trailing then
    p.positional word
  else
    match Word.ofText word with
    | .separator => .ok { p with trailing := true }
    | .long name value => p.long name value
    | .short letter =>
      match Flag.ofLetter? letter with
      | some flag => p.flag flag
      | none => .error (.wrong (.unexpectedArgument (String.ofList ['-', letter])))
    | .plain => p.plain word

/-- The variables of the environment that stand in for options. -/
structure Environment where
  machines : Option String := none
  input : Option String := none
  deriving DecidableEq

/-- An option that was not given takes the value of its variable, if that is set. -/
def fromVariable (option : ValueOption) (held : Option String) (given : Arguments) :
    Except Stop Arguments :=
  match option.get given, held with
  | none, some value => settle option (some value) given
  | _, _ => .ok given

/-- The arguments of a command line. -/
def read (environment : Environment) (words : List String) : Except Stop Arguments := do
  let p ← words.foldlM Progress.read {}
  let p ← p.settled
  let given ← fromVariable .machines environment.machines p.given
  fromVariable .input environment.input given

/-! ### Texts -/

def versionText : String :=
  "read-scw-machines 0.1.0\n"

/-- The current value of a variable, in the column of the descriptions. -/
def variableText (value : Option String) : String :=
  let column := List.replicate 29 ' '
  String.ofList ((value.getD "").toList.flatMap fun c => if c = '\n' then '\n' :: column else [c])

/-- The line of an option in the help text, with what it is for. -/
def ValueOption.helpLine (option : ValueOption) (purpose : String) : String :=
  let gap := String.ofList (List.replicate (23 - option.usage.length) ' ')
  s!"      {emphasized option.long} {option.placeholder}{gap}{purpose}\n"

/-- The line of a flag in the help text, with what it is for. -/
def Flag.helpLine (flag : Flag) (purpose : String) : String :=
  let gap := String.ofList (List.replicate (23 - flag.long.length) ' ')
  s!"  {emphasized flag.short}, {emphasized flag.long}{gap}{purpose}\n"

/-- The help text for a terminal. -/
def helpText (environment : Environment) : String :=
  "Select build machines by runner status\n" ++
  "\n" ++
  emphasized "Usage:" ++ " " ++ emphasized "read-scw-machines" ++ " [OPTIONS] [MODE]\n" ++
  "\n" ++
  emphasized "Arguments:" ++ "\n" ++
  "  [MODE]  Selection mode: ONLINE_NBUSY, ONLINE_BUSY, ONLINE or OFFLINE\n" ++
  "\n" ++
  emphasized "Options:" ++ "\n" ++
  ValueOption.machines.helpLine
    ("Machine table file (JSON array of \x7b name, id \x7d); defaults to the built-in table " ++
      "[env: SCW_MACHINES_FILE=" ++ variableText environment.machines ++ "]") ++
  ValueOption.input.helpLine
    ("Runners document to read instead of stdin (\"-\" for stdin) " ++
      "[env: SCW_RUNNERS_INPUT=" ++ variableText environment.input ++ "]") ++
  Flag.help.helpLine "Print help" ++
  Flag.version.helpLine "Print version"

/-- The text that a flag asks for. -/
def Flag.text (environment : Environment) : Flag → String
  | .help => Text.Terminal.plain (helpText environment)
  | .version => versionText

/-- The line that reports a usage error. -/
def UsageError.line (e : UsageError) : String :=
  Text.Terminal.plain (emphasized "error:" ++ " " ++ e.message)

end CommandLine

end BuildFleet
