import RemoteCall.CommandLine.Run

/-!
# Surroundings as a dialogue

A run asks its surroundings for one thing after the other.  Given the replies to
what it asked so far, it either goes through or comes to a first query that is
still open.  So a run can be carried out by going through it anew with one more
reply each time, and whoever replies need not know what the run is about.
-/

namespace RemoteCall.CommandLine

/-- What a run asks its surroundings for. -/
inductive Query where
  | file (name : String)
  | input
  | ask (question : String)
  | random
  | exchange (timeout : UInt64) (request : Http.Request)
  deriving DecidableEq, Repr

/-- A reply to a query. -/
inductive Reply where
  | contents (text : Except String String)
  | line (text : Option String)
  | bytes (bytes : List UInt8)
  | response (response : Except String Http.Response)

/-- How far a dialogue has come. -/
structure Dialogue where
  /-- The replies that were not yet used, in the order of the queries. -/
  replies : List Reply
  /-- The first query without a reply.  What a run does after it counts for
  nothing. -/
  pending : Option Query

namespace Dialogue

/-- The dialogue of a run that gets the given replies. -/
def ofReplies (replies : List Reply) : Dialogue := ⟨replies, none⟩

/-- The reply to a query, if there is one. -/
def put (query : Query) (dialogue : Dialogue) : Option Reply × Dialogue :=
  match dialogue.pending, dialogue.replies with
  | none, reply :: replies => (some reply, { dialogue with replies })
  | none, [] => (none, { dialogue with pending := some query })
  | some _, _ => (none, dialogue)

/-- Surroundings that know nothing but the replies. -/
def surroundings : Surroundings Dialogue where
  file name dialogue :=
    match dialogue.put (.file name) with
    | (some (.contents text), dialogue) => (text, dialogue)
    | (_, dialogue) => (.error "", dialogue)
  input dialogue :=
    match dialogue.put .input with
    | (some (.contents text), dialogue) => (text, dialogue)
    | (_, dialogue) => (.error "", dialogue)
  ask question dialogue :=
    match dialogue.put (.ask question) with
    | (some (.line text), dialogue) => (text, dialogue)
    | (_, dialogue) => (none, dialogue)
  random dialogue :=
    match dialogue.put .random with
    | (some (.bytes bytes), dialogue) => (bytes, dialogue)
    | (_, dialogue) => ([], dialogue)
  exchange timeout request dialogue :=
    match dialogue.put (.exchange timeout request) with
    | (some (.response response), dialogue) => (response, dialogue)
    | (_, dialogue) => (.error "", dialogue)

/-- Go through a request with the given replies: its outcome, or the first query
that is open. -/
def advance (lookup : String → Option String) (request : Request) (replies : List Reply) :
    Query ⊕ Outcome :=
  match request.run surroundings lookup (ofReplies replies) with
  | (outcome, dialogue) =>
    match dialogue.pending with
    | none => .inr outcome
    | some query => .inl query

end Dialogue

end RemoteCall.CommandLine
