import RemoteCall.CommandLine.Request
import RemoteCall.Http.Transport
import RemoteCall.Operation.Listing
import RemoteCall.Session.Login
import RemoteCall.Value.Plain

/-!
# Carrying out requests

A request is carried out in surroundings that hold files, a user, random bytes
and a network.  Nothing else is looked at but variables, and what comes out is a
text for each of the two output streams and the code that the program ends with:
`0` if all went well, `1` for an invalid signature and `2` for everything that
kept the request from being carried out.
-/

namespace RemoteCall.CommandLine

/-- What the program finds around itself, in a world of type `ω`. -/
structure Surroundings (ω : Type) where
  /-- The text in a file, or why it cannot be read. -/
  file : String → ω → Except String String × ω
  /-- All the text that comes in, or why it cannot be read. -/
  input : ω → Except String String × ω
  /-- Show a question to the user and read one line. -/
  ask : String → ω → Option String × ω
  /-- 32 random bytes. -/
  random : ω → List UInt8 × ω
  /-- The network, where an answer may take the given number of seconds. -/
  exchange : UInt64 → Http.Exchange ω

/-- The names of all variables that are looked at. -/
def variableNames : List String := styledVariable :: plainVariable :: ClientConfig.variableNames

/-- Why a request cannot be carried out. -/
inductive Failure where
  | seed (cause : KeyError)
  | file (name reason : String)
  | input (reason : String)
  | envelope
  | catalog
  /-- A named argument without a name. -/
  | kwarg (text : String)
  | config (cause : ConfigError)
  | login (url : String) (cause : SessionError)
  | session (cause : SessionError)

def Failure.message : Failure → String
  | .seed cause => "invalid seed: " ++ cause.message
  | .file name reason => "failed to read " ++ name ++ ": " ++ reason
  | .input reason => "failed to read stdin: " ++ reason
  | .envelope => "failed to parse envelope: not an envelope in JSON"
  | .catalog => "failed to parse catalog: not a catalog in JSON"
  | .kwarg text => "invalid --kwarg " ++ Text.Quoted.text text ++ ": expected NAME=JSON"
  | .config cause => "bad configuration: " ++ cause.message
  | .login url cause => "login to " ++ url ++ " failed: " ++ cause.message
  | .session cause => cause.message

/-- What comes out of the program. -/
structure Outcome where
  code : UInt8
  output : String
  errors : String
  /-- What the user should learn of besides. -/
  notices : List Notice

namespace Outcome

/-- All went well, with something to show. -/
def shown (output : String) (notices : List Notice) : Outcome := ⟨0, output, "", notices⟩

/-- The program cannot do what it is asked. -/
def failed (failure : Failure) (notices : List Notice) : Outcome :=
  ⟨2, "", programName ++ ": " ++ failure.message ++ "\n", notices⟩

/-- What arguments that are no request come to. -/
def ofRefusal (lookup : String → Option String) : Refusal → Outcome
  | .told text => shown (printed lookup text) []
  | .misuse usage =>
    ⟨2, "", "error: the arguments are not understood\n\n" ++ printed lookup usage ++
      "\nFor more information, try '--help'.\n", []⟩

end Outcome

/-! ## Keys, envelopes and saved catalogs -/

def showKey (key : SigningKey) : Outcome :=
  .shown ("seed:       " ++ String.ofList (Text.Hex.encode key.seed) ++
    "\nverify_key: " ++ toString key.verifyKey ++ "\n") []

/-- Tell whether an envelope is signed by the one who is said to have signed it. -/
def showEnvelope (envelope : Envelope Json) : Outcome :=
  if envelope.verify then ⟨0, "valid\n", "signed by " ++ toString envelope.signer ++ "\n", []⟩
  else ⟨1, "", "invalid signature (claimed signer " ++ toString envelope.signer ++ ")\n", []⟩

/-- A list of operations: whose they are, the services and, if they are asked for,
the library functions. -/
def listing (service : String) (role : Role) (protocol : ProtocolVersion)
    (services : OperationTree) (libs : Option OperationTree) : String :=
  service ++ " as " ++ toString role ++ " (protocol " ++ toString protocol ++ ")\n" ++
    Namespace.describe services ++
    match libs with
    | some libs => "\n[lib]\n" ++ Namespace.describe libs
    | none => ""

def showCatalog (catalog : Catalog) (lib : Bool) : Outcome :=
  match OperationTree.detached catalog with
  | .error e => .failed (.session e) []
  | .ok ((services, libs), collisions) =>
    .shown (listing catalog.serviceName catalog.role catalog.protocol services
      (if lib then some libs else none)) (collisions.map .collision)

/-! ## Arguments of calls -/

/-- The name and the text of a named argument. -/
def splitNamed (text : String) : Except Failure (String × String) :=
  let chars := text.toList
  match chars.dropWhile (· != '=') with
  | [] => .error (.kwarg text)
  | _ :: value => .ok (String.ofList (chars.takeWhile (· != '=')), String.ofList value)

/-- The named arguments that were typed; the last of equally named ones wins. -/
def namedArguments (texts : List String) : Except Failure (SortedMap String Value) :=
  match texts.mapM splitNamed with
  | .error e => .error e
  | .ok named => .ok (.ofList (named.map fun entry => (entry.1, Value.ofTyped entry.2)))

def CallRequest.arguments (request : CallRequest) : Except Failure Arguments :=
  match namedArguments request.kwargs with
  | .error e => .error e
  | .ok kwargs =>
    .ok ⟨request.args.map Value.ofTyped,
      if request.detached then kwargs.insert reservedKeyword (.bool false) else kwargs⟩

/-! ## Sessions -/

/-- The configuration with an address and a protocol version in the place of its
own. -/
def adjust (config : ClientConfig) (url : Option String) (newest : Option ProtocolVersion) :
    ClientConfig :=
  { config with
    url := (url.map Routes.trimSlashes).getD config.url
    protocol := newest.getD config.protocol }

/-- Whether the answer to a question is yes. -/
def isConsent (line : String) : Bool :=
  ["y", "Y", "yes"].contains (String.ofList (Text.Blank.trim line.toList))

namespace Surroundings

variable {ω : Type}

/-- The text of a file; a dash stands for what comes in. -/
def read (around : Surroundings ω) (name : String) (world : ω) : Except Failure String × ω :=
  if name = "-" then
    match around.input world with
    | (text, world) => (text.mapError .input, world)
  else
    match around.file name world with
    | (text, world) => (text.mapError (.file name), world)

/-- Asks the user before calls that carry a warning. -/
def prompter (around : Surroundings ω) : Prompter ω where
  confirm path message world :=
    match around.ask (message ++ "\nCall " ++ path ++ "? [y/N] ") world with
    | (none, world) => (false, world)
    | (some line, world) => (isConsent line, world)

/-- The configured key, or a new one. -/
def key (around : Surroundings ω) : Option SigningKey → ω → SigningKey × ω
  | some key, world => (key, world)
  | none, world =>
    match around.random world with
    | (seed, world) => (.ofSeed seed, world)

/-- Log in to the configured service.  The catalog is fetched anew whenever the
service asks for it. -/
def login (around : Surroundings ω) (config : ClientConfig) (approved : Bool) (world : ω) :
    Except Failure (Session ω × SessionState ω) × ω :=
  let (key, world) := around.key config.key world
  let (seed, world) := around.random world
  let transport := Http.transport (around.exchange config.timeout) config.url
  let login := { Login.new transport key with
    newest := config.protocol
    pin := config.pin
    prompter := if approved then .approveAll else around.prompter }
  match login.run ⟨seed, 0⟩ world with
  | (.error e, world) => (.error (.login config.url e), world)
  | (.ok (session, state), world) => (.ok (session, { state with onRefresh := .reload }), world)

/-- Log in to the service that variables tell of, or to the one at `url`. -/
def loginFrom (around : Surroundings ω) (lookup : String → Option String) (url : Option String)
    (newest : Option ProtocolVersion) (approved : Bool) (world : ω) :
    Except Failure (Session ω × SessionState ω) × ω :=
  match ClientConfig.ofVariables lookup with
  | .error e => (.error (.config e), world)
  | .ok config => around.login (adjust config url newest) approved world

end Surroundings

/-- List the operations that a session offers. -/
def showSession {ω : Type} (session : Session ω) (state : SessionState ω) (lib : Bool) : Outcome :=
  let (services, state) := state.tree .services
  let (libs, state) :=
    if lib then
      match state.tree .libs with
      | (libs, state) => (some libs, state)
    else (none, state)
  .shown (listing session.service.name state.catalog.role session.protocol services libs)
    state.notices

def showResult (result : Except SessionError (Option Value)) (notices : List Notice) : Outcome :=
  match result with
  | .error e => .failed (.session e) notices
  | .ok none => ⟨0, "", "cancelled\n", notices⟩
  | .ok (some value) => .shown (Json.indented value.toPlain ++ "\n") notices

/-- The paths of the functions below a namespace, one a line. -/
def pathsBelow (tree : OperationTree) (space : Namespace) : String :=
  let paths := (Namespace.leafPaths tree).filter fun path => path.startsWith (space.path ++ ".")
  String.join (paths.map (· ++ "\n"))

/-- Call an operation in a session.  A namespace is not called but listed. -/
def callIn {ω : Type} (session : Session ω) (path : String) (arguments : Arguments)
    (live : Live ω) : Outcome × ω :=
  let (tree, state) := live.state.tree .services
  let live := { live with state }
  match Namespace.resolve tree path with
  | .error e => (.failed (.session e) live.state.notices, live.world)
  | .ok (.space space) => (.shown (pathsBelow tree space) live.state.notices, live.world)
  | .ok (.function function) =>
    match function.call (some session.dispatcher) arguments live with
    | (result, live) => (showResult result live.state.notices, live.world)

/-! ## Requests -/

namespace Request

variable {ω : Type}

def run (around : Surroundings ω) (lookup : String → Option String) (request : Request)
    (world : ω) : Outcome × ω :=
  match request with
  | .keygen none =>
    match around.key none world with
    | (key, world) => (showKey key, world)
  | .keygen (some seed) =>
    match SigningKey.ofHexSeed seed with
    | .error e => (.failed (.seed e) [], world)
    | .ok key => (showKey key, world)
  | .verify file =>
    match around.read file world with
    | (.error e, world) => (.failed e [], world)
    | (.ok text, world) =>
      match (Json.ofText? text).bind Json.ofJson? with
      | none => (.failed .envelope [], world)
      | some envelope => (showEnvelope envelope, world)
  | .savedTree file lib =>
    match around.read file world with
    | (.error e, world) => (.failed e [], world)
    | (.ok text, world) =>
      match (Json.ofText? text).bind Json.ofJson? with
      | none => (.failed .catalog [], world)
      | some catalog => (showCatalog catalog lib, world)
  | .liveTree url lib =>
    match around.loginFrom lookup url none false world with
    | (.error e, world) => (.failed e [], world)
    | (.ok (session, state), world) => (showSession session state lib, world)
  | .call request =>
    match request.arguments with
    | .error e => (.failed e [], world)
    | .ok arguments =>
      match around.loginFrom lookup request.url request.newest request.approved world with
      | (.error e, world) => (.failed e [], world)
      | (.ok (session, state), world) => callIn session request.path arguments ⟨state, world⟩

end Request

end RemoteCall.CommandLine
