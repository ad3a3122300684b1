import Localnet.Config.Document
import Localnet.Toml.Document

/-!
Configurations as TOML documents. A record is a table, or a list of its fields in their order.
-/

namespace Localnet

namespace Toml

def asText? : Value → Option String
  | .text s => some s
  | _ => none

def asBool? : Value → Option Bool
  | .bool b => some b
  | _ => none

/-- The flags in a table. -/
def asFlags? (v : Value) : Option Flags :=
  match v.toJson with
  | .object members => some (Table.ofList members)
  | _ => none

/-- A field of a record: its name, and how a value is put into the record. -/
structure Field (σ : Type) where
  name : String
  put : Value → Option (σ → σ)

def Field.of {σ α : Type} (name : String) (decode : Value → Option α) (put : α → σ → σ) : Field σ :=
  ⟨name, fun v => (decode v).map put⟩

/-- Puts values into a record, each by its field. -/
def putAll {σ : Type} (values : List (Field σ × Value)) (record : σ) : Option σ :=
  values.foldlM (fun record entry => (entry.1.put entry.2).map (· record)) record

/-- The record that a value holds. A date or time is a record without any of the fields. -/
def record {σ : Type} (fields : List (Field σ)) (defaults : σ) : Value → Option σ
  | .table members =>
    putAll (members.filterMap fun (name, v) => (fields.find? (·.name = name)).map (·, v)) defaults
  | .list items => putAll (fields.zip items) defaults
  | .datetime _ => some defaults
  | _ => none

/-- The items of a list. -/
def items {α : Type} (decode : Value → Option α) : Value → Option (List α)
  | .list vs => vs.mapM decode
  | _ => none

end Toml

def NodeConfig.tomlFields : List (Toml.Field NodeConfig) :=
  [.of "name" Toml.asText? fun v node => { node with name := v },
   .of "isBeacon" Toml.asBool? fun v node => { node with isBeacon := v },
   .of "stakingKey" Toml.asText? fun v node => { node with stakingKey := v },
   .of "stakingCert" Toml.asText? fun v node => { node with stakingCert := v },
   .of "implSpecificConfig" some fun v node => { node with implDocument := embedded? v.toJson },
   .of "configFile" some fun v node => { node with configDocument := embedded? v.toJson },
   .of "flags" Toml.asFlags? fun v node => { node with flags := v }]

def NetworkConfig.tomlFields : List (Toml.Field NetworkConfig) :=
  [.of "name" Toml.asText? fun v config => { config with name := v },
   .of "logLevel" Toml.asText? fun v config => { config with logLevel := some v },
   .of "genesis" some fun v config => { config with genesis := embedded v.toJson },
   .of "nodeConfigs" (Toml.items (Toml.record NodeConfig.tomlFields .empty))
     fun v config => { config with nodes := v },
   .of "flags" Toml.asFlags? fun v config => { config with flags := v }]

/-- Reads a network from a TOML document. -/
def NetworkConfig.parseToml (text : String) : Option NetworkConfig :=
  (Toml.parse text).bind (Toml.record tomlFields .empty)

end Localnet
