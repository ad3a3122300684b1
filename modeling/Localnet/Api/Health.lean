import Localnet.Api.Status
import Localnet.Json.Record
import Localnet.Settings

/-!
The health check of a node's API: a JSON-RPC call over HTTP. A node that is not well answers like one
that is, whatever the status says.
-/

namespace Localnet.Api

open Json (Reader Value)

def healthEndpoint : String := "/ext/health"

def healthMethod : String := "health.health"

def healthUrl (address : String) (port : Port) : String :=
  s!"http://{address}:{port.toNat}" ++ healthEndpoint

def healthRequest : Value :=
  .object [("id", .ofNat 1 (by decide)), ("jsonrpc", .text "2.0"), ("method", .text healthMethod),
    ("params", .object [])]

inductive Fault where
  | closed (url : String)
  | unreachable (url : String)
  | unreadable (status : Status)
  | refused (code : Int) (message : String)
  | empty (status : Status)
  deriving DecidableEq

def Fault.message : Fault → String
  | .closed url => "API client for " ++ url ++ " is closed"
  | .unreachable url => "Health request to " ++ url ++ " failed"
  | .unreadable status => "Unexpected health response (" ++ describeStatus status ++ ")"
  | .refused code message => healthMethod ++ s!" failed with code {code}: " ++ message
  | .empty status => "Empty health response (" ++ describeStatus status ++ ")"

/-! ### Replies -/

/-- What a reply holds: whether the node is healthy, and what went wrong with the call. -/
structure Reply where
  healthy : Option Bool
  error : Option (Int × String)
  deriving DecidableEq

/-- A record whose fields are gathered first. An object may leave out what `ofObject` does without, a
list what `ofList` does without. -/
def gathered {σ α : Type} (expected : String) (fields : Nat → List (Json.Field σ)) (none : σ)
    (ofObject ofList : σ → Option α) (depth : Nat) : Reader α :=
  let complete (finish : σ → Option α) (reader : Reader σ) : Reader α := fun cs => do
    let (record, rest) ← reader cs
    match finish record with
    | some a => return (a, rest)
    | .none => .error ⟨.missingField expected, rest, 0⟩
  Json.byBracket
    (some (Json.nested depth fun depth => complete ofList (Json.recordList (fields depth) none)))
    (some (Json.nested depth fun depth => complete ofObject (Json.recordObject (fields depth) none)))
    expected

/-- An integer of 64 bits with a sign. -/
def code : Reader Int := fun cs => do
  let (v, rest) ← Json.value 0 cs
  match v with
  | .int n =>
    if n.val < 0x8000000000000000 then return (n.val, rest) else .error ⟨.numberOutOfRange, rest, 0⟩
  | _ => .error ⟨.expectedValue, rest, 0⟩

def healthResult : (depth : Nat) → Reader Bool :=
  gathered "struct HealthReply" (fun _ => [.of "healthy" Json.bool fun v _ => some v]) none id id

def callError : (depth : Nat) → Reader (Int × String) :=
  let pair (fields : Option Int × Option String) := fields.1.bind fun c => fields.2.map (c, ·)
  gathered "struct JsonRpcError"
    (fun _ =>
      [.of "code" code fun v fields => (some v, fields.2),
        .of "message" Json.text fun v fields => (fields.1, some v)])
    (none, none) pair pair

/-- A reply. Either part may be `null`, and missing from an object. -/
def reply : (depth : Nat) → Reader Reply :=
  gathered "struct JsonRpcResponse"
    (fun depth =>
      [.of "result" (Json.optional (healthResult depth)) fun v fields => (some v, fields.2),
        .of "error" (Json.optional (callError depth)) fun v fields => (fields.1, some v)])
    (none, none) (fun fields => some ⟨fields.1.join, fields.2.join⟩)
    (fun fields => fields.1.bind fun result => fields.2.map (⟨result, ·⟩))

def Reply.parse (text : String) : Except Json.Error Reply :=
  Json.read (reply Json.depthLimit) text

/-! ### Checks -/

inductive Delivery where
  | lost
  | answered (status : Status) (body : ByteArray)

/-- The result that an answer gives. A result counts even if an error stands beside it. -/
def resultOf (status : Status) (body : ByteArray) : Except Fault Bool :=
  match (String.fromUTF8? body).map Reply.parse with
  | some (.ok ⟨some healthy, _⟩) => .ok healthy
  | some (.ok ⟨none, some (code, message)⟩) => .error (.refused code message)
  | some (.ok ⟨none, none⟩) => .error (.empty status)
  | some (.error _) | none => .error (.unreadable status)

structure Connection where
  url : String
  closed : Bool

namespace Connection

def ofAddress (address : String) (port : Port) : Connection := ⟨healthUrl address port, false⟩

def close (connection : Connection) : Connection := { connection with closed := true }

/-- The result of a check by what comes of its request; a closed connection sends none. -/
def check (connection : Connection) (delivery : Delivery) : Except Fault Bool :=
  if connection.closed then .error (.closed connection.url)
  else
    match delivery with
    | .lost => .error (.unreachable connection.url)
    | .answered status body => resultOf status body

end Connection

end Localnet.Api
