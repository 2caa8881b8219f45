import SettingCatalog.Files.System
import SettingCatalog.Json.Value
import SettingCatalog.Source.Backoff
import SettingCatalog.Source.Error
import SettingCatalog.Text.Blank
import SettingCatalog.Tree.Decode

/-!
Trees from a parsing service. A request is one line of JSON on a connection of its own, and so is
the answer. The network is a sequence of contacts: what becomes of each connection that is tried.

Failures of the connection and of the protocol are repeated, with longer and longer waits; what
the service itself rejects is not.
-/

namespace SettingCatalog

open Json

inductive Contact where
  /-- There is no connection; nothing was sent. -/
  | unreachable (cause : OsError)
  /-- The request was sent, and the answer cannot be read. -/
  | silent (cause : OsError)
  /-- The request was sent, and these bytes came before the connection was closed. -/
  | reply (bytes : Bytes)
deriving DecidableEq, Repr

/-- The outcomes of all connections that are tried, in their order. -/
abbrev Network := Nat → Contact

structure Response where
  status : String
  data : Option Node
  message : Option String

namespace Response

structure Draft where
  status : Option String
  data : Option (Option Node)
  message : Option (Option String)

def schema (tree : Reader Node) : Schema Draft where
  name := "ParseResponse"
  fields :=
    [.required "status" [] text (·.status) fun d v => { d with status := some v },
     .electiveMember "data" (nullable tree) (·.data) fun d v => { d with data := some v },
     .electiveMember "message" (nullable text) (·.message)
       fun d v => { d with message := some v }]

def read (depth : Nat) : Reader Response := fun bs => do
  let (d, rest) ← (schema (Node.read depth)).read ⟨none, none, none⟩ bs
  return (⟨d.status.getD "", d.data.getD none, d.message.getD none⟩, rest)

def decode (bs : Bytes) : Except Fault Response := whole (read (bs.length + 1)) bs

end Response

/-! ### Where the service listens, as `host:port` -/

namespace Endpoint

def split? (endpoint : String) : Option (String × String) :=
  match endpoint.toList.reverse.dropWhile (· != ':') with
  | [] => none
  | _ :: host =>
    some (String.ofList host.reverse,
      String.ofList (endpoint.toList.reverse.takeWhile (· != ':')).reverse)

/-- Whether a text is the number of a port. A plus sign may stand before it. -/
def isPort (s : String) : Bool :=
  let ds := match s.toList with
    | '+' :: ds => ds
    | ds => ds
  !ds.isEmpty && ds.all Char.isDigit
    && ds.foldl (fun n c => n * 10 + (c.toNat - '0'.toNat)) 0 < UInt16.size

def fault? (endpoint : String) : Option OsError :=
  match split? endpoint with
  | none => some .invalidAddress
  | some (host, port) =>
    if !isPort port then some .invalidPort
    else if host.contains '\x00' then some .nulInName
    else none

def isNumeric (host : String) : Bool :=
  host == "localhost" || host.toList.head? == some '[' ||
    (!host.isEmpty && host.toList.all fun c => c.isDigit || c == '.')

end Endpoint

namespace Network

def offline (endpoint : String) : Network := fun _ =>
  match Endpoint.split? endpoint with
  | some (host, _) =>
    .unreachable (if Endpoint.isNumeric host then .networkUnreachable else .unknownHost)
  | none => .unreachable .networkUnreachable

/-- The network of a service that gives the listed replies and then refuses every connection. -/
def scripted (replies : List Contact) : Network := fun i =>
  (replies[i]?).getD (.unreachable .connectionRefused)

end Network

structure Client where
  endpoint : String
  language : String
  timeout : UInt64
  retry : RetryPolicy
deriving DecidableEq, Repr

namespace Client

def defaultLanguage : String := "java"

def requestValue (c : Client) (path content : String) : Value :=
  .object
    [("command", .text "PARSE"),
      ("params", .object
        [("path", .text path), ("language", .text c.language), ("content", .text content)])]

def request (c : Client) (path content : String) : String :=
  (c.requestValue path content).compact ++ "\n"

def firstLine (bs : Bytes) : Bytes :=
  bs.takeWhile (· != 0xa) ++ (bs.dropWhile (· != 0xa)).take 1

def judge (path : String) (r : Response) : Except TreeError Node :=
  if r.status = "success" then
    match r.data with
    | some tree => .ok tree.normalize
    | none => .error (.protocol .successWithoutData)
  else .error (.rejected path (r.message.getD ("status " ++ r.status)))

/-- What the bytes of a reply mean. Only the first line counts. -/
def classify (c : Client) (path : String) (bs : Bytes) : Except TreeError Node :=
  if bs.isEmpty then .error (.protocol .closed)
  else
    match Text.Utf8.decode? (firstLine bs) with
    | none => .error (.unreachable c.endpoint .invalidUtf8)
    | some line =>
      match Response.decode (Text.Utf8.encode (Text.trim line)) with
      | .error fault => .error (.protocol (.invalidResponse fault))
      | .ok r => judge path r

def once (c : Client) (path : String) : Contact → Except TreeError Node × Bool
  | .unreachable cause => (.error (.unreachable c.endpoint cause), false)
  | .silent cause =>
    if c.timeout = 0 then (.error (.unreachable c.endpoint .zeroTimeout), false)
    else (.error (.unreachable c.endpoint cause), true)
  | .reply bs =>
    if c.timeout = 0 then (.error (.unreachable c.endpoint .zeroTimeout), false)
    else (c.classify path bs, true)

structure Exchange where
  result : Except TreeError Node
  contacts : Nat
  requests : List String
  waits : List Nat

/-- Asks until there is an answer that counts or no repetition is left. `attempt` connections were
tried before. -/
def attempts (c : Client) (path line : String) (network : Network) : Nat → Nat → Exchange
  | left, attempt =>
    let (result, sent) := c.once path (network attempt)
    let requests := if sent then [line] else []
    match result, left with
    | .error e, left + 1 =>
      if e.isTransient then
        let later := attempts c path line network left (attempt + 1)
        { later with
          contacts := later.contacts + 1
          requests := requests ++ later.requests
          waits := c.retry.backoff (UInt32.ofNat attempt) :: later.waits }
      else ⟨result, 1, requests, []⟩
    | _, _ => ⟨result, 1, requests, []⟩

/-- The network as an endpoint shows it: what is no address is never reached. -/
def reach (c : Client) (network : Network) : Network :=
  match Endpoint.fault? c.endpoint with
  | some cause => fun _ => .unreachable cause
  | none => network

def ask (c : Client) (fs : FileSystem) (network : Network) (path : String) : Exchange :=
  match fs.readText path with
  | .error e => ⟨.error (.unreadable path e), 0, [], []⟩
  | .ok content =>
    c.attempts path (c.request path content) (c.reach network) c.retry.retries.toNat 0

structure Traffic where
  contacts : Nat
  requests : List String
deriving DecidableEq, Repr

/-- Asks for the tree of a source file, on the part of the network that is not used up. -/
def acquire (c : Client) (fs : FileSystem) (network : Network) : TreeSource Traffic :=
  fun path traffic =>
    let x := c.ask fs (fun i => network (traffic.contacts + i)) path
    (x.result, ⟨traffic.contacts + x.contacts, traffic.requests ++ x.requests⟩)

end Client

end SettingCatalog
