import Localnet.Json.Writer
import Localnet.Members

/-!
The settings that a node may declare: in its flags, in its config file and in the document of its
implementation. Each is read by itself and never converted; `null` declares nothing.
-/

namespace Localnet

open Json (Value)

abbrev NetworkId := UInt32

abbrev Port := UInt16

/-- What a field has to hold. -/
inductive FieldKind where
  | networkId
  | text
  | port
  deriving DecidableEq

def FieldKind.describe : FieldKind → String
  | .networkId => "an unsigned 32-bit number"
  | .text => "a string"
  | .port => "a port number"

/-- Where a field was declared. -/
inductive SettingsSource where
  | flags
  | configFile
  | implDocument
  deriving DecidableEq

def SettingsSource.describe : SettingsSource → String
  | .flags => "flags"
  | .configFile => "config file"
  | .implDocument => "implementation-specific config"

/-- A field that holds something else than it has to. -/
structure FieldFault where
  source : SettingsSource
  field : String
  expected : FieldKind
  deriving DecidableEq

/-- The number that a value holds, if it is below a limit. -/
def natBelow? (limit : Nat) (v : Value) : Option Nat :=
  v.nat?.filter (· < limit)

def asNetworkId? (v : Value) : Option NetworkId :=
  (natBelow? UInt32.size v).map UInt32.ofNat

def asPort? (v : Value) : Option Port :=
  (natBelow? UInt16.size v).map UInt16.ofNat

def asText? : Value → Option String
  | .text s => some s
  | _ => none

/-- A field that may be missing or `null`. -/
def declared? {α : Type} (get : String → Option Value) (source : SettingsSource) (field : String)
    (expected : FieldKind) (decode : Value → Option α) : Except FieldFault (Option α) :=
  match get field with
  | none => .ok none
  | some .null => .ok none
  | some v =>
    match decode v with
    | some a => .ok (some a)
    | none => .error ⟨source, field, expected⟩

structure NodeSettings where
  networkId : Option NetworkId
  dbDir : Option String
  logDir : Option String
  httpPort : Option Port
  stakingPort : Option Port
  deriving DecidableEq

namespace NodeSettings

def none : NodeSettings := ⟨.none, .none, .none, .none, .none⟩

/-- The settings that the fields of one source declare. -/
def decode (get : String → Option Value) (source : SettingsSource) :
    Except FieldFault NodeSettings := do
  let networkId ← declared? get source "network-id" .networkId asNetworkId?
  let dbDir ← declared? get source "db-dir" .text asText?
  let logDir ← declared? get source "log-dir" .text asText?
  let httpPort ← declared? get source "http-port" .port asPort?
  let stakingPort ← declared? get source "staking-port" .port asPort?
  return ⟨networkId, dbDir, logDir, httpPort, stakingPort⟩

/-- The settings that the members of an object declare. -/
def ofMembers (members : List (String × Value)) (source : SettingsSource) :
    Except FieldFault NodeSettings :=
  decode (fun field => Members.find? field members) source

/-- Both together; where both declare a field, the first. -/
def «over» (upper lower : NodeSettings) : NodeSettings :=
  { networkId := upper.networkId.or lower.networkId
    dbDir := upper.dbDir.or lower.dbDir
    logDir := upper.logDir.or lower.logDir
    httpPort := upper.httpPort.or lower.httpPort
    stakingPort := upper.stakingPort.or lower.stakingPort }

theorem over_assoc (a b c : NodeSettings) : (a.«over» b).«over» c = a.«over» (b.«over» c) := by
  simp [«over», Option.or_assoc]

@[simp] theorem over_none (s : NodeSettings) : s.«over» none = s := by
  simp [«over», none]

@[simp] theorem none_over (s : NodeSettings) : none.«over» s = s := by
  simp [«over», none]

end NodeSettings

end Localnet
