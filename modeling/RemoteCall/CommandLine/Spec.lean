import RemoteCall.Migration.ProtocolVersion
import RemoteCall.Session.Config

/-!
# Commands

What the program can be asked for on the command line.  A command has options
and at most one operand.  Reading arguments and writing help texts both follow
these tables.
-/

namespace RemoteCall.CommandLine

/-- An option of a command. -/
structure OptionSpec where
  /-- What follows the two dashes. -/
  name : String
  /-- The letter that stands for the option after a single dash.  Only options
  without a value have one. -/
  letter : Option Char
  /-- What the option's value is called; without one the option is a flag. -/
  value : Option String
  /-- Whether the option may be given more than once. -/
  repeats : Bool
  /-- The variable that stands in for an option that is not given. -/
  fallback : Option String
  /-- Whether a text can be the option's value. -/
  accepts : String → Bool
  summary : String

namespace OptionSpec

def flag (name summary : String) : OptionSpec where
  name := name
  letter := none
  value := none
  repeats := false
  fallback := none
  accepts _ := true
  summary := summary

/-- An option whose value may be any text. -/
def valued (name value summary : String) : OptionSpec :=
  { flag name summary with value := some value }

end OptionSpec

/-- The operand of a command. -/
structure OperandSpec where
  name : String
  required : Bool
  /-- Whether a text can be the operand. -/
  accepts : String → Bool
  summary : String

/-- How a command is given and what is said about it. -/
structure CommandSpec where
  name : String
  summary : String
  /-- What is said about the command beyond the summary, one text a paragraph. -/
  details : List String
  options : List OptionSpec
  operand : Option OperandSpec

def programName : String := "sigcall"

def programVersion : String := "0.1.0"

def programSummary : String := "sigcall: signed remote calls from the command line"

/-- The name of a file has at least one character. -/
def isFileName (text : String) : Bool := !text.isEmpty

def urlOption : OptionSpec :=
  { OptionSpec.valued "url" "URL" "Service URL" with fallback := some ClientConfig.urlVariable }

/-- What the program can be asked to do. -/
inductive Command where
  /-- Make a key. -/
  | keygen
  /-- Check a signed envelope. -/
  | verify
  /-- List operations. -/
  | tree
  /-- Call an operation. -/
  | call
  deriving DecidableEq, Repr

namespace CommandSpec

def keygen : CommandSpec where
  name := "keygen"
  summary := "Generate a signing key"
  details := ["Prints the hex seed (export it as SIGCALL_SEED) and the multibase verify key " ++
    "that identifies you to services."]
  options :=
    [.valued "seed" "HEX" "Derive from an existing hex seed instead of generating one"]
  operand := none

def verify : CommandSpec where
  name := "verify"
  summary := "Verify a signed envelope"
  details := ["Exits 0 and prints the signer if the signature is valid, 1 otherwise. " ++
    "Pass `-` as FILE to read from stdin."]
  options := []
  operand := some ⟨"FILE", true, isFileName, "Path to a JSON envelope, or `-` for stdin"⟩

def tree : CommandSpec where
  name := "tree"
  summary := "Print a proxy tree with rendered signatures"
  details := ["With CATALOG, reads a saved catalog JSON file (`-` for stdin). " ++
    "Without it, logs in to the service and prints the caller's catalog."]
  options := [urlOption, .flag "lib" "Also list library functions"]
  operand := some
    ⟨"CATALOG", false, isFileName, "Path to an endpoint catalog JSON file, or `-` for stdin"⟩

def call : CommandSpec where
  name := "call"
  summary := "Call an operation"
  details := ["Arguments are JSON; anything that is not valid JSON is sent as a string. " ++
    "Examples: sigcall call user.get --kwarg email='\"a@b.c\"' " ++
    "sigcall call math.add --arg 1 --arg 2 --no-block"]
  options := [
    { OptionSpec.valued "arg" "JSON" "Positional argument as JSON. Repeat for more" with
      repeats := true },
    { OptionSpec.valued "kwarg" "NAME=JSON" "Keyword argument as NAME=JSON. Repeat for more" with
      repeats := true },
    .flag "no-block" "Ask the service not to wait for the result",
    { OptionSpec.flag "yes" "Approve endpoint warnings without asking" with
      letter := some 'y' },
    urlOption,
    { OptionSpec.valued "protocol" "VERSION" "Newest protocol version to offer" with
      accepts text := (ProtocolVersion.ofString text).isOk }]
  operand := some
    ⟨"PATH", true, fun _ => true, "Dotted operation path, e.g. `user.get`"⟩

end CommandSpec

namespace Command

def spec : Command → CommandSpec
  | .keygen => .keygen
  | .verify => .verify
  | .tree => .tree
  | .call => .call

/-- All commands, in the order in which they are listed. -/
def all : List Command := [.keygen, .verify, .tree, .call]

def named? (name : String) : Option Command := all.find? fun command => command.spec.name == name

end Command

end RemoteCall.CommandLine
