import RemoteCall.CommandLine.Dialogue
import Std.Async.DNS
import Std.Async.TCP
import Std.Async.Timer

/-!
# The program

What a run asks for is looked up in the real surroundings, one query after the
other, until the run goes through.
-/

namespace RemoteCall.CommandLine

open Std.Async Std.Net

/-- What the system says about an error. -/
def systemReason : IO.Error → String
  | .noFileOrDirectory _ code text | .permissionDenied _ code text
  | .inappropriateType _ code text | .invalidArgument _ code text
  | .resourceExhausted _ code text | .noSuchThing _ code text =>
    text ++ " (os error " ++ toString code ++ ")"
  | other => toString other

/-- Carry out an action that may fail. -/
def attempt {α : Type} (action : IO α) : IO (Except String α) := do
  try return .ok (← action)
  catch e => return .error (systemReason e)

def textOfBytes (bytes : ByteArray) : Except String String :=
  match String.fromUTF8? bytes with
  | some text => .ok text
  | none => .error "stream did not contain valid UTF-8"

/-- All bytes up to the end of a stream. -/
partial def readAll (stream : IO.FS.Stream) (read : ByteArray) : IO ByteArray := do
  let bytes ← stream.read 65536
  if bytes.isEmpty then return read else readAll stream (read ++ bytes)

/-- All bytes up to the end of a connection. -/
partial def receiveAll (client : TCP.Socket.Client) (received : ByteArray) : Async ByteArray := do
  match ← client.recv? 65536 with
  | none => return received
  | some bytes => receiveAll client (received ++ bytes)

/-- Connect to the first place that can be reached. -/
def connect (number : UInt16) : List IPAddr → Async TCP.Socket.Client
  | [] => throw (IO.userError "no address can be reached")
  | place :: places => do
    let client ← TCP.Socket.Client.mk
    try
      client.connect (match place with
        | .v4 host => .v4 ⟨host, number⟩
        | .v6 host => .v6 ⟨host, number⟩)
      return client
    catch _ => connect number places

/-- Send a request over a connection of its own and wait for all of the answer. -/
def converseOver (address : Http.Address) (request : Http.Request) : Async ByteArray := do
  let places ← DNS.getAddrInfo address.host (toString address.portNumber)
  let client ← connect address.portNumber places.toList
  client.send ⟨(request.bytes address).toArray⟩
  receiveAll client .empty

/-- Fail when the given number of seconds is over. -/
def expire (timeout : UInt64) : Async ByteArray := do
  Std.Async.sleep (.ofNat (1000 * timeout.toNat))
  throw (IO.userError "operation timed out")

def exchangeOver (timeout : UInt64) (request : Http.Request) : IO Http.Response := do
  match Http.Address.ofUrl? request.url with
  | none => throw (IO.userError "the address cannot be used")
  | some address =>
    let bytes ← (Async.race (converseOver address request) (expire timeout)).block
    match Http.Response.ofBytes? bytes.toList with
    | none => throw (IO.userError "the answer is broken")
    | some response => return response

/-- The reply that the real surroundings give to a query. -/
def replyTo : Query → IO Reply
  | .file name => do
    return .contents ((← attempt (IO.FS.withFile name .read (·.readBinToEnd))).bind textOfBytes)
  | .input => do
    return .contents ((← attempt (readAll (← IO.getStdin) .empty)).bind textOfBytes)
  | .ask question => do
    IO.eprint question
    (← IO.getStderr).flush
    return .line (← attempt (← IO.getStdin).getLine).toOption
  | .random => do return .bytes (← IO.getRandomBytes 32).toList
  | .exchange timeout request => do
    return .response (← attempt (exchangeOver timeout request))

/-- Go through a request until all its queries have replies. -/
partial def carryOut (lookup : String → Option String) (request : Request)
    (replies : List Reply) : IO Outcome := do
  match Dialogue.advance lookup request replies with
  | .inr outcome => return outcome
  | .inl query => carryOut lookup request (replies ++ [← replyTo query])

def noticeLine (notice : Notice) : String :=
  "warning: " ++ notice.message ++
    String.join (notice.details.map fun detail => " " ++ detail.1 ++ "=" ++ detail.2)

end RemoteCall.CommandLine

open RemoteCall RemoteCall.CommandLine in
/-- Carry out what the arguments ask for. -/
def main (arguments : List String) : IO UInt32 := do
  let settings ← variableNames.filterMapM fun name => do
    return (← IO.getEnv name).map fun value => (name, value)
  let lookup (name : String) := settings.lookup name
  let outcome ← match Request.ofTokens lookup arguments with
    | .error refusal => pure (Outcome.ofRefusal lookup refusal)
    | .ok request => carryOut lookup request []
  for notice in outcome.notices do
    IO.eprintln (noticeLine notice)
  IO.print outcome.output
  IO.eprint outcome.errors
  return outcome.code.toUInt32
