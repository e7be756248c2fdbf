import RemoteCall.CommandLine.Help
import RemoteCall.CommandLine.Reading

/-!
# Requests

What the arguments ask the program to do.
-/

namespace RemoteCall.CommandLine

/-- What is to be called, and how. -/
structure CallRequest where
  path : String
  /-- The positional arguments as they were typed. -/
  args : List String
  /-- The named arguments as they were typed. -/
  kwargs : List String
  /-- Whether the service is not to wait for the result. -/
  detached : Bool
  /-- Whether warnings are approved without asking. -/
  approved : Bool
  url : Option String
  /-- The newest protocol version that is offered. -/
  newest : Option ProtocolVersion

/-- What the program is asked to do. -/
inductive Request where
  /-- Show a key, the one with the given seed or a new one. -/
  | keygen (seed : Option String)
  /-- Check the signed envelope in a file. -/
  | verify (file : String)
  /-- List the operations of a saved catalog. -/
  | savedTree (file : String) (lib : Bool)
  /-- List the operations that a service offers. -/
  | liveTree (url : Option String) (lib : Bool)
  /-- Call an operation. -/
  | call (request : CallRequest)

/-- Why arguments are no request.  The texts are written for a terminal. -/
inductive Refusal where
  /-- They are not understood; `usage` says how to do better. -/
  | misuse (usage : String)
  /-- They ask for a text about the program. -/
  | told (text : String)
  deriving DecidableEq, Repr

namespace Request

/-- The request that the arguments of a command make. -/
def ofReading (lookup : String → Option String) (command : Command) (reading : Reading) :
    Option Request :=
  let url := reading.value? lookup urlOption
  let lib := reading.has "lib"
  match command, reading.operand with
  | .keygen, none => some (.keygen (reading.values "seed").head?)
  | .verify, some file => some (.verify file)
  | .tree, some file => some (.savedTree file lib)
  | .tree, none => some (.liveTree url lib)
  | .call, some path => some (.call {
      path := path
      args := reading.values "arg"
      kwargs := reading.values "kwarg"
      detached := reading.has "no-block"
      approved := reading.has "yes"
      url := url
      newest := (reading.values "protocol").head?.bind fun text =>
        (ProtocolVersion.ofString text).toOption })
  | _, _ => none

/-- What a command is asked to do by its arguments. -/
def ofCommand (lookup : String → Option String) (command : Command) (tokens : List String) :
    Except Refusal Request :=
  match Reading.ofTokens command.spec tokens with
  | .error .misuse => .error (.misuse command.spec.usage)
  | .error (.help long) => .error (.told (command.spec.help lookup long))
  | .ok reading =>
    match ofReading lookup command reading with
    | some request => .ok request
    | none => .error (.misuse command.spec.usage)

/-- The help text that is asked for by the names of commands. -/
def ofHelp (lookup : String → Option String) : List String → Refusal
  | [] => .told (Program.help lookup)
  | ["help"] => .told Program.helpOfHelp
  | [name] =>
    match Command.named? name with
    | some command => .told (command.spec.help lookup true)
    | none => .misuse Program.usage
  | _ => .misuse Program.usage

/-- What the program is told by arguments that do not begin with a command. -/
def ofFlags (lookup : String → Option String) (token : String) : Refusal :=
  if token = "--help" then .told (Program.help lookup)
  else if token = "--version" then .told Program.version
  else
    match token.toList with
    | '-' :: 'h' :: _ => .told (Program.help lookup)
    | '-' :: 'V' :: _ => .told Program.version
    | _ => .misuse Program.usage

/-- What the program is asked to do by its arguments. -/
def ofTokens (lookup : String → Option String) : List String → Except Refusal Request
  | [] => .error (.misuse Program.usage)
  | token :: tokens =>
    if token = "help" then .error (ofHelp lookup tokens)
    else
      match Command.named? token with
      | some command => ofCommand lookup command tokens
      | none => .error (ofFlags lookup token)

end Request

end RemoteCall.CommandLine
