import RemoteCall.Operation.Function
import RemoteCall.Value.IdSource

/-!
# Recorded calls

A dispatcher that sends nothing.  It answers from a table and records what a
session would have been asked to do.
-/

namespace RemoteCall

/-- Something that a session would have been asked to do. -/
inductive DispatchEvent where
  /-- Ask whether the call of the operation at `path` may go out. -/
  | asked (path message : String)
  | action (action : Action)
  | call (call : Call)
  | refresh

/-- What was recorded, the latest last. -/
structure Recording where
  events : List DispatchEvent
  notices : List Notice
  ids : IdSource
  deriving Inhabited

namespace Recording

def add (recording : Recording) (event : DispatchEvent) : Recording :=
  { recording with events := recording.events ++ [event] }

/-- The dispatcher that records.  Every question is answered with `approve`, and
every call with the reply for its path or, without one, with none. -/
def dispatcher (service : Uid) (protocol : ProtocolVersion) (engine : MigrationEngine)
    (approve : Bool) (replies : List (String × CallResult)) : Dispatcher Recording where
  service := service
  protocol := protocol
  engine := engine
  freshIds recording :=
    let (id, ids) := recording.ids.draw
    let (resultId, ids) := ids.draw
    ((id, resultId), { recording with ids })
  confirm path message recording := (approve, recording.add (.asked path message))
  notify notice recording := { recording with notices := recording.notices ++ [notice] }
  recordAction action recording := recording.add (.action action)
  dispatch call recording :=
    (.ok ((replies.lookup call.path).getD (.ok .none false)), recording.add (.call call))
  requestRefresh recording := recording.add .refresh

end Recording

end RemoteCall
