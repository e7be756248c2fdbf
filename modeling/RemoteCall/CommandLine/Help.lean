import RemoteCall.CommandLine.Spec
import RemoteCall.Text.ControlSequence

/-!
# Help texts

A help text says what a command is for, how it is used, and what its operand and
its options are.  In the short form every option has one line, and the summaries
stand below each other.  In the long form they stand on lines of their own.

The texts are written as a terminal shows them, and the present values of
variables stand in them as they are, whatever they hold.  What is printed is the
text as a whole, freed of control sequences unless variables demand them.
-/

namespace RemoteCall.CommandLine

open Text.ControlSequence (bold plain underlined)

/-! ## Printing -/

def styledVariable : String := "CLICOLOR_FORCE"

/-- The variable that forbids control sequences, even if they are demanded. -/
def plainVariable : String := "NO_COLOR"

def isSet (lookup : String → Option String) (name : String) : Bool :=
  (lookup name).any fun value => !value.isEmpty

/-- What is printed of a text that was written for a terminal. -/
def printed (lookup : String → Option String) (text : String) : String :=
  if isSet lookup styledVariable && !isSet lookup plainVariable then text else plain text

/-! ## Entries -/

/-- An entry of a list in a help text: what is explained, and the explanation,
one text a paragraph. -/
structure HelpEntry where
  head : String
  /-- The head as a terminal shows it. -/
  shown : String
  paragraphs : List String

/-- Let every line but the first start with `width` blanks. -/
def indented (width : Nat) (text : String) : String :=
  String.ofList (text.toList.flatMap fun c =>
    if c = '\n' then '\n' :: List.replicate width ' ' else [c])

namespace HelpEntry

/-- An entry with its head shown by `style`. -/
def ofHead (style : String → String) (head : String) (paragraphs : List String) : HelpEntry :=
  ⟨head, style head, paragraphs⟩

/-- An entry on one line, the explanations starting in the same column. -/
def short (width : Nat) (entry : HelpEntry) : String :=
  "  " ++ entry.shown ++ String.ofList (List.replicate (width - entry.head.length) ' ') ++ "  " ++
    indented (width + 4) (" ".intercalate entry.paragraphs) ++ "\n"

/-- An entry whose explanation stands below it. -/
def long (entry : HelpEntry) : String :=
  "  " ++ entry.shown ++ indented 10 ("\n" ++ "\n\n".intercalate entry.paragraphs) ++ "\n"

/-- Entries under a heading, after an empty line. -/
def listing (isLong : Bool) (heading : String) (entries : List HelpEntry) : String :=
  let width := (entries.map fun entry => entry.head.length).foldl max 0
  if entries.isEmpty then ""
  else "\n" ++ underlined (heading ++ ":") ++ "\n" ++
    if isLong then "\n".intercalate (entries.map long)
    else String.join (entries.map (short width))

end HelpEntry

/-- What an option is called in a help text, its names shown by `style`. -/
def OptionSpec.head (style : String → String) (option : OptionSpec) : String :=
  (match option.letter with
    | some letter => style (String.ofList ['-', letter]) ++ ", "
    | none => "    ") ++ style ("--" ++ option.name) ++
  (match option.value with
    | some value => " <" ++ value ++ ">"
    | none => "")

/-- An option in a help text, with the present value of the variable that stands
in for it. -/
def OptionSpec.helpEntry (lookup : String → Option String) (option : OptionSpec) : HelpEntry where
  head := option.head id
  shown := option.head bold
  paragraphs := option.summary ::
    (option.fallback.map fun name =>
      "[env: " ++ name ++ "=" ++ (lookup name).getD "" ++ "]").toList

def helpFlag (summary : String) : OptionSpec :=
  { OptionSpec.flag "help" summary with letter := some 'h' }

/-- The flag that asks for the program's version. -/
def versionFlag : OptionSpec :=
  { OptionSpec.flag "version" "Print version" with letter := some 'V' }

def OperandSpec.placeholder (operand : OperandSpec) : String :=
  if operand.required then "<" ++ operand.name ++ ">" else "[" ++ operand.name ++ "]"

def OperandSpec.helpEntry (operand : OperandSpec) : HelpEntry :=
  .ofHead id operand.placeholder [operand.summary]

/-! ## Commands and the program -/

/-- A line that says how something is used: its names, and what follows them. -/
def usageLine (names arguments : List String) : String :=
  underlined "Usage:" ++ " " ++ " ".intercalate (bold (" ".intercalate names) :: arguments) ++ "\n"

namespace CommandSpec

def usage (command : CommandSpec) : String :=
  usageLine [programName, command.name]
    ((if command.options.isEmpty then [] else ["[OPTIONS]"]) ++
      (command.operand.map OperandSpec.placeholder).toList)

/-- The command in the list of all commands. -/
def helpEntry (command : CommandSpec) : HelpEntry := .ofHead bold command.name [command.summary]

def help (lookup : String → Option String) (isLong : Bool) (command : CommandSpec) : String :=
  let about := if isLong then (command.summary ++ ".") :: command.details else [command.summary]
  let other := if isLong then "a summary with '-h'" else "more with '--help'"
  let options := command.options ++ [helpFlag ("Print help (see " ++ other ++ ")")]
  "\n\n".intercalate about ++ "\n\n" ++ command.usage ++
    HelpEntry.listing isLong "Arguments" (command.operand.map OperandSpec.helpEntry).toList ++
    HelpEntry.listing isLong "Options" (options.map (OptionSpec.helpEntry lookup))

end CommandSpec

namespace Program

def usage : String := usageLine [programName] ["<COMMAND>"]

/-- What the command that shows help texts is for. -/
def helpSummary : String := "Print this message or the help of the given subcommand(s)"

def help (lookup : String → Option String) : String :=
  programSummary ++ "\n\n" ++ usage ++
    HelpEntry.listing false "Commands" (Command.all.map (fun command => command.spec.helpEntry) ++
      [.ofHead bold "help" [helpSummary]]) ++
    HelpEntry.listing false "Options"
      ([helpFlag "Print help", versionFlag].map (OptionSpec.helpEntry lookup))

/-- The help text of the command that shows help texts. -/
def helpOfHelp : String :=
  helpSummary ++ "\n\n" ++ usageLine [programName, "help"] ["[COMMAND]..."] ++
    HelpEntry.listing false "Arguments"
      [.ofHead id "[COMMAND]..." ["Print help for the subcommand(s)"]]

def version : String := programName ++ " " ++ programVersion ++ "\n"

end Program

end RemoteCall.CommandLine
