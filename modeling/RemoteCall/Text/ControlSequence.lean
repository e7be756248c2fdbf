/-!
# Control sequences

A text for a terminal holds control sequences between what it shows: they start
with an escape character and say how to show the rest.
What is not sent to a terminal goes without them, and without all other control
characters but tabs, line ends and form feeds.

A text is read one character at a time.  Where in a sequence the reader stands
is a `Phase`; what may follow decides what the next phase is and whether the
character is kept.
-/

namespace RemoteCall.Text.ControlSequence

/-- Where in a control sequence a reader stands. -/
inductive Phase where
  /-- Outside of sequences. -/
  | ground
  /-- After the escape character. -/
  | escape
  /-- Before the last character of a sequence without parameters. -/
  | intermediate
  /-- Among the parameters of a control sequence proper. -/
  | parameters
  /-- In a command to the operating system. -/
  | command
  /-- At the start of a control string for a device. -/
  | device
  /-- Among the parameters of a control string. -/
  | deviceParameters
  /-- After the parameters of a control string. -/
  | deviceIntermediate
  /-- In the body of a control string. -/
  | body
  deriving DecidableEq, Repr

/-- Whether a character lies between two others. -/
def within (first last c : Char) : Bool := first ≤ c && c ≤ last

namespace Phase

def next (phase : Phase) (c : Char) : Phase :=
  if c = '\x1b' then .escape
  else if c = '\x18' ∨ c = '\x1a' then .ground
  else
    match phase with
    | .ground => .ground
    | .escape =>
      if c = '[' then .parameters
      else if c = ']' then .command
      else if c = 'P' then .device
      else if c = 'X' ∨ c = '^' ∨ c = '_' then .body
      else if within ' ' '/' c then .intermediate
      else if within '0' '~' c then .ground
      else .escape
    | .intermediate => if within '0' '~' c then .ground else .intermediate
    | .parameters => if within '@' '~' c then .ground else .parameters
    | .command => if c = '\x07' then .ground else .command
    | .device =>
      if within ' ' '/' c then .deviceIntermediate
      else if within '0' '?' c then .deviceParameters
      else if within '@' '~' c then .body
      else .device
    | .deviceParameters =>
      if within ' ' '/' c then .deviceIntermediate
      else if within '<' '~' c then .body
      else .deviceParameters
    | .deviceIntermediate => if within '0' '~' c then .body else .deviceIntermediate
    | .body => if (String.utf8EncodeChar c).contains 0x9c then .ground else .body

end Phase

/-- The control characters that are kept. -/
def isBlankControl (c : Char) : Bool := c == '\t' || c == '\n' || c == '\x0c' || c == '\r'

/-- Whether a character outside of sequences is kept. -/
def isPlain (c : Char) : Bool := (' ' ≤ c && c != '\x7f') || isBlankControl c

def Phase.keeps : Phase → Char → Bool
  | .ground, c => isPlain c
  | .escape, c => isBlankControl c
  | .intermediate, c => isBlankControl c
  | .parameters, c => isBlankControl c
  | _, _ => false

/-- What is kept of the rest of a text.  `running` says whether the character
before was kept: what follows then counts as outside of sequences up to the next
character that is not kept, even if no sequence has ended. -/
def strip : Phase → Bool → List Char → List Char
  | _, _, [] => []
  | phase, running, c :: rest =>
    if (if running then Phase.ground else phase).keeps c then
      c :: strip (if c.toNat < 0x80 then phase else .ground) true rest
    else strip (phase.next c) false rest

def plain (text : String) : String := String.ofList (strip .ground false text.toList)

/-- A text that a terminal shows in bold letters. -/
def bold (text : String) : String := "\x1b[1m" ++ text ++ "\x1b[0m"

/-- A text that a terminal shows in bold letters with a line below them. -/
def underlined (text : String) : String := "\x1b[1m\x1b[4m" ++ text ++ "\x1b[0m"

example : plain (bold "a" ++ "\x07b\n") = "ab\n" := by decide +kernel

end RemoteCall.Text.ControlSequence
