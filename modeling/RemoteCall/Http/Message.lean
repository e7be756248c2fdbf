import RemoteCall.Text.Decimal

/-!
# HTTP messages

A request goes out over a connection of its own and asks for the connection to
be closed after the answer, so an answer ends with its connection at the latest.
Only addresses of the scheme `http` can be reached.
-/

namespace RemoteCall.Http

/-- What a request asks for: to tell something, or to take something in. -/
inductive Method where
  | get
  /-- Hand in a JSON text. -/
  | post (body : List UInt8)
  deriving DecidableEq, Repr

/-- A request. -/
structure Request where
  method : Method
  url : String
  deriving DecidableEq, Repr

/-- An answer. -/
structure Response where
  status : UInt16
  body : List UInt8
  deriving DecidableEq, Repr

/-- The parts of an address. -/
structure Address where
  host : String
  /-- The number that tells the host's services apart. -/
  portNumber : UInt16
  /-- The path and what follows it. -/
  target : String
  deriving DecidableEq, Repr

namespace Address

/-- The scheme of an address and the marks that follow it. -/
def scheme : List Char := "http://".toList

/-- The number that stands behind a host, or that of the scheme. -/
def portNumber? : List Char → Option UInt16
  | [] | [':'] => some 80
  | ':' :: digits => (Text.Decimal.unsigned? UInt16.size digits).map UInt16.ofNat
  | _ => none

def ofUrl? (url : String) : Option Address := do
  let text := url.toList
  if scheme.isPrefixOf text then
    let text := text.drop scheme.length
    let authority := text.takeWhile fun c => c != '/' && c != '?' && c != '#'
    let rest := (text.drop authority.length).takeWhile (· != '#')
    let host := authority.takeWhile (· != ':')
    let portNumber ← portNumber? (authority.drop host.length)
    if host.isEmpty then none
    else
      let target := if rest.head? = some '/' then rest else '/' :: rest
      return ⟨String.ofList host, portNumber, String.ofList target⟩
  else none

end Address

namespace Request

/-- The lines of a request before its body, each ended. -/
def head (method : Method) (address : Address) : String :=
  let lines := match method with
    | .get => ["GET " ++ address.target ++ " HTTP/1.0"]
    | .post body => [
        "POST " ++ address.target ++ " HTTP/1.0",
        "Content-Type: application/json",
        "Content-Length: " ++ String.ofList (Text.Decimal.ofNat body.length)]
  let number := String.ofList (Text.Decimal.ofNat address.portNumber.toNat)
  let lines := lines ++ ["Host: " ++ address.host ++ ":" ++ number, "Accept: */*",
    "Connection: close", ""]
  String.join (lines.map (· ++ "\r\n"))

def bytes (request : Request) (address : Address) : List UInt8 :=
  (head request.method address).toUTF8.toList ++
    match request.method with
    | .get => []
    | .post body => body

end Request

namespace Response

/-- The bytes before the first empty line and those after it. -/
def split? : List UInt8 → Option (List UInt8 × List UInt8)
  | [] => none
  | 13 :: 10 :: 13 :: 10 :: rest => some ([], rest)
  | byte :: rest => (split? rest).map fun parts => (byte :: parts.1, parts.2)

/-- The status that the first line of an answer tells. -/
def status? (line : String) : Option UInt16 :=
  match line.splitOn " " with
  | protocol :: code :: _ =>
    if protocol.startsWith "HTTP/" then
      (Text.Decimal.unsigned? 1000 code.toList).map UInt16.ofNat
    else none
  | _ => none

/-- The length of the body that a line of an answer's head tells. -/
def length? (line : String) : Option Nat :=
  match line.splitOn ":" with
  | [name, value] =>
    if name.toLower = "content-length" then
      Text.Decimal.digits? (value.toList.filter (· != ' '))
    else none
  | _ => none

/-- The answer that all bytes of a connection make.  None if the connection was
cut. -/
def ofBytes? (bytes : List UInt8) : Option Response := do
  let (head, rest) ← split? bytes
  match (← String.fromUTF8? ⟨head.toArray⟩).splitOn "\r\n" with
  | [] => none
  | line :: lines =>
    let status ← status? line
    match lines.findSome? length? with
    | none => return ⟨status, rest⟩
    | some length => if rest.length < length then none else return ⟨status, rest.take length⟩

def isSuccess (response : Response) : Bool :=
  200 ≤ response.status && response.status < 300

def text (response : Response) : String :=
  (String.fromUTF8? ⟨response.body.toArray⟩).getD ""

end Response

end RemoteCall.Http
