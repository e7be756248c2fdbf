import RemoteCall.CommandLine.Spec

/-!
# Reading arguments

The arguments of a command are read from left to right.

* `--name value` and `--name=value` give an option its value.  A value that
  stands alone must not look like an option itself: a dash and more.
* `--name` sets a flag, and so does its letter after a single dash, alone or
  with others.
* `--` ends the options: what follows is no option whatever it looks like.
* Everything else is the command's operand.

Asking for help ends the reading at once; so does the first mistake.
-/

namespace RemoteCall.CommandLine

/-- Why the reading of arguments ended early. -/
inductive Halt where
  | misuse
  /-- Help is asked for, in the long form or the short one. -/
  | help (long : Bool)
  deriving DecidableEq, Repr

/-- What was read so far. -/
structure Reading where
  /-- The options with their values in the order given; a flag's value is empty. -/
  options : List (String × String)
  operand : Option String
  /-- The option whose value comes next. -/
  awaiting : Option OptionSpec
  /-- Whether the options have ended. -/
  ended : Bool

namespace Reading

def start : Reading := ⟨[], none, none, false⟩

def has (reading : Reading) (name : String) : Bool :=
  reading.options.any fun option => option.1 == name

/-- The values that were given to an option. -/
def values (reading : Reading) (name : String) : List String :=
  (reading.options.filter fun option => option.1 == name).map Prod.snd

/-- Take in an option with its value. -/
def take (reading : Reading) (option : OptionSpec) (value : String) : Except Halt Reading :=
  if (reading.has option.name && !option.repeats) || !option.accepts value then .error .misuse
  else .ok { reading with
    options := reading.options ++ [(option.name, value)]
    awaiting := none }

def takeOperand (command : CommandSpec) (reading : Reading) (token : String) :
    Except Halt Reading :=
  match command.operand, reading.operand with
  | some operand, none =>
    if operand.accepts token then .ok { reading with operand := some token }
    else .error .misuse
  | _, _ => .error .misuse

/-- Take in what follows two dashes: a name and, after an equals sign, a value. -/
def takeLong (command : CommandSpec) (reading : Reading) (text : List Char) :
    Except Halt Reading :=
  let name := String.ofList (text.takeWhile (· != '='))
  let value := (text.dropWhile (· != '=')).tail?.map String.ofList
  match command.options.find? fun option => option.name == name with
  | none => .error (if name = "help" ∧ value = none then .help true else .misuse)
  | some option =>
    match option.value, value with
    | none, none => reading.take option ""
    | none, some _ => .error .misuse
    | some _, none => .ok { reading with awaiting := some option }
    | some _, some value => reading.take option value

/-- Take in the letters that follow a single dash. -/
def takeLetters (command : CommandSpec) : Reading → List Char → Except Halt Reading
  | reading, [] => .ok reading
  | reading, letter :: letters =>
    match command.options.find? fun option => option.letter == some letter with
    | some option =>
      match reading.take option "" with
      | .error halt => .error halt
      | .ok reading => takeLetters command reading letters
    | none => .error (if letter = 'h' then .help false else .misuse)

/-- Whether a token looks like an option. -/
def isDashed : List Char → Bool
  | '-' :: _ :: _ => true
  | _ => false

def step (command : CommandSpec) (reading : Reading) (token : String) : Except Halt Reading :=
  match reading.awaiting with
  | some option => if isDashed token.toList then .error .misuse else reading.take option token
  | none =>
    if reading.ended then takeOperand command reading token
    else
      match token.toList with
      | ['-', '-'] => .ok { reading with ended := true }
      | '-' :: '-' :: text => takeLong command reading text
      | '-' :: letter :: letters => takeLetters command reading (letter :: letters)
      | _ => takeOperand command reading token

def isComplete (command : CommandSpec) (reading : Reading) : Bool :=
  reading.awaiting.isNone &&
    (reading.operand.isSome || !command.operand.any fun operand => operand.required)

def ofTokens (command : CommandSpec) (tokens : List String) : Except Halt Reading :=
  match tokens.foldlM (step command) start with
  | .error halt => .error halt
  | .ok reading => if reading.isComplete command then .ok reading else .error .misuse

/-- The value of an option that is given once at most, or else that of the
variable that stands in for it. -/
def value? (lookup : String → Option String) (reading : Reading) (option : OptionSpec) :
    Option String :=
  (reading.values option.name).head?.or (option.fallback.bind lookup)

end Reading

end RemoteCall.CommandLine
