import RemoteCall.Operation.Tree
import RemoteCall.Value.IdSource

/-!
# Sessions

A session is one caller talking to one service.  Every call that it sends is
signed with the caller's key.  Every answer is checked, against the key that the
service told at login if that key is pinned, before it is opened.

The trees of operations are built from the catalog when they are first asked
for.  A new catalog takes the place of the old one together with the trees; an
unusable catalog changes nothing.
-/

namespace RemoteCall

/-- What is done when an answer asks for the catalog to be fetched anew. -/
inductive RefreshAction (ω : Type) where
  | nothing
  /-- Fetch the catalog. -/
  | reload
  /-- Act on the world. -/
  | run (act : ω → ω)

/-- Which of the two trees of a catalog. -/
inductive Branch where
  | services
  | libs
  deriving DecidableEq, Repr

/-- The tree of one branch of a catalog. -/
def Branch.treeOf : Branch → Catalog → OperationTree × List Collision
  | .services, catalog => OperationTree.ofServices catalog
  | .libs, catalog => OperationTree.ofLibs catalog

/-- What stays the same in a session. -/
structure Session (ω : Type) where
  service : ServiceIdentity
  key : SigningKey
  protocol : ProtocolVersion
  transport : Transport ω
  engine : MigrationEngine
  prompter : Prompter ω
  /-- The only key whose answers are taken. -/
  pinned : Option VerifyKey

/-- What changes in a session. -/
structure SessionState (ω : Type) where
  catalog : Catalog
  /-- How often the catalog was replaced. -/
  generation : Nat
  /-- The tree of services, once it was asked for. -/
  services : Option OperationTree
  /-- The tree of library functions, once it was asked for. -/
  libs : Option OperationTree
  onRefresh : RefreshAction ω
  /-- The actions since the trace was begun, if one is being taken. -/
  trace : Option (List Action)
  ids : IdSource
  /-- What the user should learn of, the latest last. -/
  notices : List Notice

/-- A session at work: its state, and the world around it. -/
structure Live (ω : Type) where
  state : SessionState ω
  world : ω

namespace SessionState

variable {ω : Type}

/-- The state of a session that was just begun. -/
def new (catalog : Catalog) (ids : IdSource) : SessionState ω where
  catalog := catalog
  generation := 0
  services := none
  libs := none
  onRefresh := .nothing
  trace := none
  ids := ids
  notices := []

instance : Inhabited (SessionState ω) := ⟨.new default default⟩

def notify (state : SessionState ω) (notice : Notice) : SessionState ω :=
  { state with notices := state.notices ++ [notice] }

/-! ## Trees -/

/-- The tree of a branch, if it was built already. -/
def cached? (state : SessionState ω) : Branch → Option OperationTree
  | .services => state.services
  | .libs => state.libs

/-- The state with the tree of a branch built. -/
def cache (state : SessionState ω) (branch : Branch) (tree : OperationTree) :
    SessionState ω :=
  match branch with
  | .services => { state with services := some tree }
  | .libs => { state with libs := some tree }

/-- The tree of a branch, built from the catalog if it was not yet. -/
def tree (state : SessionState ω) (branch : Branch) : OperationTree × SessionState ω :=
  match state.cached? branch with
  | some tree => (tree, state)
  | none =>
    let (tree, collisions) := branch.treeOf state.catalog
    let notices := state.notices ++ collisions.map .collision
    (tree, { state with notices }.cache branch tree)

/-- Whether the tree of a branch has a member of the given name. -/
def hasMember (state : SessionState ω) (branch : Branch) (name : String) :
    Bool × SessionState ω :=
  let (tree, state) := state.tree branch
  (Namespace.contains tree name, state)

/-! ## Traces -/

/-- Append to the trace, if one is being taken. -/
def recordAction (state : SessionState ω) (action : Action) : SessionState ω :=
  { state with trace := state.trace.map (· ++ [action]) }

/-- Begin a trace, in the place of one that is being taken. -/
def beginTrace (state : SessionState ω) : SessionState ω := { state with trace := some [] }

/-- The actions since the trace was begun, which ends it. -/
def endTrace (state : SessionState ω) : List Action × SessionState ω :=
  (state.trace.getD [], { state with trace := none })

end SessionState

namespace Live

variable {ω : Type}

/-- Change the state only. -/
def modify (live : Live ω) (f : SessionState ω → SessionState ω) : Live ω :=
  { live with state := f live.state }

def notify (live : Live ω) (notice : Notice) : Live ω := live.modify (·.notify notice)

/-- Two identifiers that were never used. -/
def freshIds (live : Live ω) : (Uid × Uid) × Live ω :=
  let (id, ids) := live.state.ids.draw
  let (resultId, ids) := ids.draw
  ((id, resultId), live.modify fun state => { state with ids })

end Live

/-- Refuse a catalog that is not one of the service or cannot be used. -/
def ServiceIdentity.checkCatalog (service : ServiceIdentity) (catalog : Catalog) :
    Except SessionError Unit :=
  if catalog.service = service.id then catalog.check.mapError .catalog
  else .error (.identityMismatch service.id catalog.service)

namespace Session

variable {ω : Type}

def caller (session : Session ω) : VerifyKey := session.key.verifyKey

def describe (session : Session ω) : String :=
  "ApiSession \x7b service: " ++ Text.Quoted.text session.service.name ++
    ", caller: " ++ session.caller.describe ++
    ", protocol: " ++ session.protocol.describe ++ ", .. \x7d"

/-! ## Catalogs -/

/-- Put a catalog in the place of the present one.  The trees are forgotten. -/
def replaceCatalog (session : Session ω) (catalog : Catalog) (state : SessionState ω) :
    Except SessionError Unit × SessionState ω :=
  match session.service.checkCatalog catalog with
  | .error e => (.error e, state)
  | .ok () =>
    (.ok (), { state with
      catalog := catalog
      generation := state.generation + 1
      services := none
      libs := none })

/-- Fetch the catalog anew and put it in the place of the present one. -/
def refresh (session : Session ω) (live : Live ω) : Except SessionError Unit × Live ω :=
  match session.transport.catalog session.caller session.protocol live.world with
  | (.error e, world) => (.error (.ofTransport e), { live with world })
  | (.ok catalog, world) =>
    match session.replaceCatalog catalog live.state with
    | (result, state) => (result, ⟨state, world⟩)

/-- Do what is to be done when an answer asks for the catalog to be fetched
anew. -/
def requestRefresh (session : Session ω) (live : Live ω) : Live ω :=
  match live.state.onRefresh with
  | .nothing => live
  | .run act => { live with world := act live.world }
  | .reload =>
    match session.refresh live with
    | (.ok (), live) => live
    | (.error e, live) => live.notify (.refreshFailed e)

/-- Ask the service anew who it is. -/
def fetchIdentity (session : Session ω) (world : ω) :
    Except SessionError ServiceIdentity × ω :=
  match session.transport.identity session.caller world with
  | (.error e, world) => (.error (.ofTransport e), world)
  | (.ok metadata, world) => (.ok metadata.identity, world)

/-! ## Calls -/

/-- Check and open the answer to the call of the operation at `path`. -/
def receive (session : Session ω) (path : String) (reply : Envelope CallResult)
    (live : Live ω) : Except SessionError CallResult × Live ω :=
  let accept : Except SessionError CallResult × Live ω :=
    match reply.openPayload with
    | (.ok result, _) => (.ok result, live)
    | (.error e, _) => (.error (.ofEnvelope e), live.notify (.rejected path e))
  match session.pinned with
  | none => accept
  | some expected =>
    if reply.signer = expected then accept
    else (.error .invalidSignature, live.notify (.foreignSigner path reply.signer expected))

/-- Sign and send a call, check and open the answer. -/
def dispatch (session : Session ω) (call : Call) (live : Live ω) :
    Except SessionError CallResult × Live ω :=
  match Envelope.sign session.key call with
  | .error e => (.error (.ofEnvelope e), live)
  | .ok envelope =>
    match session.transport.send envelope live.world with
    | (.error e, world) => (.error (.ofTransport e), { live with world })
    | (.ok reply, world) => session.receive call.path reply { live with world }

/-- What calls made in the session need of it. -/
def dispatcher (session : Session ω) : Dispatcher (Live ω) where
  service := session.service.id
  protocol := session.protocol
  engine := session.engine
  freshIds := Live.freshIds
  confirm path message live :=
    match session.prompter.confirm path message live.world with
    | (agreed, world) => (agreed, { live with world })
  notify notice live := live.notify notice
  recordAction action live := live.modify (·.recordAction action)
  dispatch := session.dispatch
  requestRefresh := session.requestRefresh

/-- Call the service's operation at a path. -/
def call (session : Session ω) (path : String) (arguments : Arguments) (live : Live ω) :
    Except SessionError (Option Value) × Live ω :=
  let (tree, state) := live.state.tree .services
  let live := { live with state }
  match Namespace.resolve tree path with
  | .error e => (.error e, live)
  | .ok (.space _) => (.error (.wrongMemberKind path .callable), live)
  | .ok (.function f) => f.call (some session.dispatcher) arguments live

end Session

end RemoteCall
