import BuildFleet.Settings

/-!
# Events

What happens on the way to an answer, for whoever watches.  An event has a level, the part of the
program that it concerns (its target), and a message.
-/

namespace BuildFleet

/-- How much an event matters, from the greatest importance down. -/
inductive Level where
  | error
  | warn
  | info
  | debug
  | trace
  deriving DecidableEq

def Level.text : Level → String
  | .error => "ERROR"
  | .warn => "WARN"
  | .info => "INFO"
  | .debug => "DEBUG"
  | .trace => "TRACE"

inductive Event where
  | configured (settings : Settings)
  | tableOpened (path : String)
  | tableEmpty
  | idNotUuid (name id : String)
  | nameRepeated (name : String)
  | tableLoaded (size : Nat)
  | listingParsed (size : Nat)
  | modeUnrecognized (mode : Mode)
  | selected (mode : Mode) (ids runners : Nat)
  deriving DecidableEq

namespace Event

def level : Event → Level
  | .tableEmpty | .idNotUuid .. | .nameRepeated _ | .modeUnrecognized _ => .warn
  | .configured _ | .tableOpened _ | .tableLoaded _ | .listingParsed _ | .selected .. => .debug

def target : Event → String
  | .configured _ => "read_scw_machines"
  | .tableLoaded _ | .modeUnrecognized _ => "read_scw_machines::run"
  | .tableOpened _ | .tableEmpty | .idNotUuid .. | .nameRepeated _ => "scw_core::domain::machine"
  | .listingParsed _ => "scw_core::domain::runner"
  | .selected .. => "scw_core::filter"

def message : Event → String
  | .configured settings => s!"Resolved configuration: {settings.inspect}"
  | .tableOpened path => s!"Loading machine table from {path}"
  | .tableEmpty => "Machine table is empty, no machine will ever be selected"
  | .idNotUuid name id =>
    s!"Machine {name} has id {Text.quoted id} which is not a UUID, it will be printed as-is"
  | .nameRepeated name =>
    s!"Machine name {name} appears more than once, every entry will be reported"
  | .tableLoaded size => s!"Loaded {size} machine(s)"
  | .listingParsed size => s!"Parsed {size} runner(s)"
  | .modeUnrecognized mode =>
    s!"Unrecognized mode {Text.quoted mode.text}, expected one of " ++
      "ONLINE_NBUSY, ONLINE_BUSY, ONLINE, OFFLINE; selecting nothing"
  | .selected mode ids runners =>
    s!"Mode {mode.text} selected {ids} machine(s) from {runners} runner(s)"

end Event

end BuildFleet
