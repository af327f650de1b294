import BuildFleet.Mode
import BuildFleet.Text.Quoted

/-!
# Settings

What a run is asked for: a mode, where the table of machines comes from, and where the listing of
runners comes from.
-/

namespace BuildFleet

/-- Where the table of machines comes from. -/
inductive TableSource where
  | builtin
  | file (path : String)
  deriving DecidableEq

/-- Where the listing of runners comes from. -/
inductive ListingSource where
  | stdin
  | file (path : String)
  deriving DecidableEq

structure Settings where
  mode : Mode
  machines : TableSource
  input : ListingSource
  deriving DecidableEq

/-- The values given for the settings, on a command line or otherwise. -/
structure Arguments where
  mode : Option String := none
  machines : Option String := none
  input : Option String := none
  deriving DecidableEq

/-- The settings of the arguments, unless there is no mode.  A listing from `-` comes from the
standard input, as it does by default. -/
def Arguments.settings? (args : Arguments) : Option Settings :=
  args.mode.map fun mode =>
    { mode := Mode.ofText mode
      machines := args.machines.elim .builtin .file
      input :=
        match args.input with
        | none => .stdin
        | some path => if path = "-" then .stdin else .file path }

/-! ### In messages -/

def Mode.inspect : Mode → String
  | .onlineNotBusy => "OnlineNotBusy"
  | .onlineBusy => "OnlineBusy"
  | .online => "Online"
  | .offline => "Offline"
  | .unrecognized text => s!"Unrecognized({Text.quoted text})"

def TableSource.inspect : TableSource → String
  | .builtin => "Builtin"
  | .file path => s!"File({Text.quotedPath path})"

def ListingSource.inspect : ListingSource → String
  | .stdin => "Stdin"
  | .file path => s!"File({Text.quotedPath path})"

def Settings.inspect (s : Settings) : String :=
  let fields := s!"mode: {s.mode.inspect}, machines: {s.machines.inspect}, " ++
    s!"input: {s.input.inspect}"
  "Config \x7b " ++ fields ++ " \x7d"

end BuildFleet
