import RemoteCall.Operation.Function

/-!
# Trees of operations

The operations of a catalog are listed in a tree of namespaces.  An endpoint
with the module path `a.b.c` stands in the namespace `a.b` under its own name.

Endpoints may claim one place.  A namespace wins over a function, a function of
the service over user code, and else the one with the lesser module path; what
loses is left out of the tree and told of.  Among functions that are alike in
both, the first one stays.
-/

namespace RemoteCall

/-- A namespace with children of type `α`: its dotted path, empty for the root,
and its children in the order of their names. -/
structure NamespaceOf (α : Type) where
  path : String
  children : List (String × α)

/-- A child of a namespace. -/
inductive OperationNode where
  | space (space : NamespaceOf OperationNode)
  | function (function : RemoteFunction)

/-- A namespace of operations. -/
abbrev Namespace := NamespaceOf OperationNode

/-- A tree of operations is its root. -/
abbrev OperationTree := Namespace

def OperationNode.asFunction? : OperationNode → Option RemoteFunction
  | .function f => some f
  | .space _ => none

namespace Namespace

/-- The namespace at a path without children. -/
def new (path : String) : Namespace := ⟨path, []⟩

def size (space : Namespace) : Nat := space.children.length

def isEmpty (space : Namespace) : Bool := space.children.isEmpty

/-- The child called `name`, if there is one. -/
def find? (space : Namespace) (name : String) : Option OperationNode :=
  Entries.find? name space.children

def contains (space : Namespace) (name : String) : Bool := (space.find? name).isSome

/-- The path of the child called `name`. -/
def childPath (space : Namespace) (name : String) : String :=
  if space.path = "" then name else space.path ++ "." ++ name

/-- The namespace with a child in its place among the children. -/
def withChild (space : Namespace) (name : String) (node : OperationNode) : Namespace :=
  { space with children := Entries.insert name node space.children }

/-! ## Looking up -/

def get (space : Namespace) (name : String) : Except SessionError OperationNode :=
  match space.find? name with
  | some node => .ok node
  | none => .error (.unknownMember space.path name)

def getSpace (space : Namespace) (name : String) : Except SessionError Namespace :=
  match space.get name with
  | .error e => .error e
  | .ok (.space child) => .ok child
  | .ok (.function _) => .error (.wrongMemberKind (space.childPath name) .space)

def getFunction (space : Namespace) (name : String) : Except SessionError RemoteFunction :=
  match space.get name with
  | .error e => .error e
  | .ok (.function child) => .ok child
  | .ok (.space _) => .error (.wrongMemberKind (space.childPath name) .callable)

/-- Go on from a node along further names. -/
def descend : OperationNode → List String → Except SessionError OperationNode
  | node, [] => .ok node
  | .function f, name :: _ => .error (.unknownMember f.path name)
  | .space space, name :: names =>
    match Namespace.get space name with
    | .error e => .error e
    | .ok node => descend node names

/-- The node at a dotted path from here. -/
def resolve (space : Namespace) (path : String) : Except SessionError OperationNode :=
  descend (.space space) (Path.segments path)

/-! ## Inserting -/

/-- Whether a function keeps its place when another comes: one of the service
stands before user code, and the lesser module path before the greater. -/
def keeps (old new : RemoteFunction) : Bool :=
  match old.userCodeId?.isSome, new.userCodeId?.isSome with
  | false, true => true
  | true, false => false
  | _, _ => compare old.endpoint.modulePath new.endpoint.modulePath != .gt

/-- Put a function into this very namespace, if the place is not better taken. -/
def insertLeaf (name : String) (new : RemoteFunction) (space : Namespace) :
    Namespace × List Collision :=
  let dropped (f : RemoteFunction) : List Collision :=
    [.taken (space.childPath name) f.endpoint.modulePath]
  match space.find? name with
  | none => (space.withChild name (.function new), [])
  | some (.space _) => (space, dropped new)
  | some (.function old) =>
    if keeps old new then (space, dropped new)
    else (space.withChild name (.function new), dropped old)

/-- Put a function into the namespace at the given segments from here, with all
the namespaces on the way. -/
def insert (name : String) (new : RemoteFunction) :
    List String → Namespace → Namespace × List Collision
  | [], space => space.insertLeaf name new
  | segment :: segments, space =>
    let path := space.childPath segment
    let (child, shadowed) : Namespace × List Collision :=
      match space.find? segment with
      | none => (.new path, [])
      | some (.space child) => (child, [])
      | some (.function old) => (.new path, [.shadowed path old.endpoint.modulePath])
    let (child, collisions) := insert name new segments child
    (space.withChild segment (.space child), shadowed ++ collisions)

/-! ## Indexing -/

variable {σ : Type}

/-- The name of the operation that lists what a namespace holds. -/
def listName : String := "get_all"

/-- What the namespace's operation `get_all` answers with, which has to be a
list. -/
def getAll (space : Namespace) (host : Option (Dispatcher σ)) (s : σ) :
    Except SessionError (List Value) × σ :=
  match space.find? listName with
  | some (.function f) =>
    match f.call host ⟨[], .empty⟩ s with
    | (.error e, s) => (.error e, s)
    | (.ok none, s) => (.ok [], s)
    | (.ok (some (.list items)), s) => (.ok items, s)
    | (.ok (some other), s) =>
      let text := "`" ++ f.path ++ "` returned " ++ other.typeName ++ " instead of a list"
      (.error (.unexpectedReply text), s)
  | _ => (.error (.notIndexable space.path), s)

/-- The item at a place of what `get_all` answers with. -/
def index (space : Namespace) (host : Option (Dispatcher σ)) (place : Nat) (s : σ) :
    Except SessionError Value × σ :=
  match space.getAll host s with
  | (.error e, s) => (.error e, s)
  | (.ok items, s) =>
    match items[place]? with
    | some item => (.ok item, s)
    | none => (.error (.indexOutOfRange space.path place items.length), s)

end Namespace

namespace OperationTree

def empty : OperationTree := .new ""

/-- Put an endpoint into a tree, under its own name in the namespace of its
module path. -/
def insert (tree : OperationTree) (endpoint : Endpoint) (kind : FunctionKind) :
    OperationTree × List Collision :=
  let space := endpoint.space
  let path := if space = "" then endpoint.name else space ++ "." ++ endpoint.name
  let segments := if space = "" then [] else Path.segments space
  Namespace.insert endpoint.name (.ofEndpoint path endpoint kind) segments tree

/-- Put endpoints into a tree, one after the other. -/
def insertAll (tree : OperationTree) :
    List (Endpoint × FunctionKind) → OperationTree × List Collision
  | [] => (tree, [])
  | (endpoint, kind) :: rest =>
    let (tree, collisions) := tree.insert endpoint kind
    let (tree, more) := insertAll tree rest
    (tree, collisions ++ more)

/-- The tree of the given endpoints, and what is missing from it. -/
def ofEndpoints (endpoints : List (Endpoint × FunctionKind)) :
    OperationTree × List Collision :=
  empty.insertAll endpoints

def ofServices (catalog : Catalog) : OperationTree × List Collision :=
  ofEndpoints (catalog.endpoints.values.map fun endpoint => (endpoint, .service))

/-- The tree of a catalog's library functions. -/
def ofLibs (catalog : Catalog) : OperationTree × List Collision :=
  ofEndpoints (catalog.libEndpoints.values.map fun endpoint => (endpoint, .lib))

/-- Both trees of a catalog that no session stands behind, if it can be used. -/
def detached (catalog : Catalog) :
    Except SessionError ((OperationTree × OperationTree) × List Collision) :=
  match catalog.check with
  | .error e => .error (.catalog e)
  | .ok () =>
    let (api, collisions) := ofServices catalog
    let (lib, more) := ofLibs catalog
    .ok ((api, lib), collisions ++ more)

end OperationTree

end RemoteCall
