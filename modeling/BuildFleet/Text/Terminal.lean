/-!
# Text — without terminal control

A text for a terminal may hold sequences of characters that are commands: they begin with an escape
character, and most of them end with a letter.  `plain` is what is left of such a text for a reader
that is no terminal: the characters outside of sequences, without control characters other than
blank ones.

Three things go beyond leaving the sequences out.

* A blank control character inside a sequence is text.  The sequence is suspended then: what follows
  is text as well, up to a control character that is not blank, after which the sequence goes on.
* A character beyond ASCII belongs to no sequence.  Inside of one it is dropped, and behind a
  suspended one it is text and ends the sequence for good.
* A string for the terminal ends at the byte `9c`, also if that is part of a character.
-/

namespace BuildFleet.Text.Terminal

/-- A sequence that is carried on by characters up to a last one, and may be suspended. -/
inductive Command where
  /-- After an escape character. -/
  | escape
  /-- After a space or a punctuation mark behind that. -/
  | intermediate
  /-- In the parameters of a control sequence. -/
  | parameters
  deriving DecidableEq

/-- The parts in front of a string for a device. -/
inductive Header where
  | start
  | parameters
  | intermediate
  deriving DecidableEq

/-- Where a character stands. -/
inductive State where
  /-- In plain text. -/
  | ground
  | command (c : Command)
  /-- In plain text, inside a sequence that goes on later. -/
  | suspended (c : Command)
  | header (h : Header)
  /-- In a string for the terminal. -/
  | string
  /-- In a string that names something, up to a bell. -/
  | title
  deriving DecidableEq

/-! ### Characters -/

/-- Tab, line feed, form feed, carriage return. -/
def isBlankControl (c : Char) : Bool :=
  c == '\t' || c == '\n' || c == '\x0c' || c == '\r'

def isControl (c : Char) : Bool :=
  c.toNat < 0x20 || c.toNat == 0x7f

def isAscii (c : Char) : Bool :=
  c.toNat < 0x80

/-- The character is text outside of sequences. -/
def isText (c : Char) : Bool :=
  !isControl c || isBlankControl c

/-- The space and the punctuation marks below the digits. -/
def isIntermediate (c : Char) : Bool :=
  0x20 ≤ c.toNat && c.toNat ≤ 0x2f

/-- Two sequences are broken off by a character of their own. -/
def breaksOff (c : Char) : Bool :=
  c == '\x18' || c == '\x1a'

/-- A byte of the character's UTF-8 form ends a string for the terminal. -/
def endsString (c : Char) : Bool :=
  (String.utf8EncodeChar c).contains 0x9c

/-! ### Sequences -/

/-- After one more ASCII character of a sequence that is no control character. -/
def Command.next (command : Command) (c : Char) : State :=
  match command with
  | .escape =>
    if isIntermediate c then .command .intermediate
    else if c == '[' then .command .parameters
    else if c == ']' then .title
    else if c == 'P' then .header .start
    else if c == 'X' || c == '^' || c == '_' then .string
    else .ground
  | .intermediate => if isIntermediate c then .command .intermediate else .ground
  | .parameters => if c.toNat < 0x40 then .command .parameters else .ground

/-- After one more ASCII character of a header that is no control character. -/
def Header.next (header : Header) (c : Char) : State :=
  if isIntermediate c then .header .intermediate
  else
    match header with
    | .start => if c.toNat < 0x40 then .header .parameters else .string
    | .parameters => if c.toNat < 0x3c then .header .parameters else .string
    | .intermediate => .string

/-- The state after a character, and the text that it adds. -/
def next (state : State) (c : Char) : State × List Char :=
  if c == '\x1b' then (.command .escape, [])
  else if breaksOff c then (.ground, [])
  else
    match state with
    | .ground => (.ground, if isText c then [c] else [])
    | .command command =>
      if isBlankControl c then (.suspended command, [c])
      else if isControl c || !isAscii c then (.command command, [])
      else (command.next c, [])
    | .suspended command =>
      if !isAscii c then (.ground, [c])
      else if isText c then (.suspended command, [c])
      else (.command command, [])
    | .header header =>
      if isControl c || !isAscii c then (.header header, []) else (header.next c, [])
    | .string => (if endsString c then .ground else .string, [])
    | .title => (if c == '\x07' then .ground else .title, [])

/-- The text from a state on. -/
def plainFrom : State → List Char → List Char
  | _, [] => []
  | state, c :: rest =>
    let (state, added) := next state c
    added ++ plainFrom state rest

/-- What is left of a text without the commands in it. -/
def plain (text : String) : String :=
  String.ofList (plainFrom .ground text.toList)

/-- A text that a terminal shows with emphasis. -/
def emphasized (text : String) : String :=
  "\x1b[1m" ++ text ++ "\x1b[0m"

end BuildFleet.Text.Terminal
