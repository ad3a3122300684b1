import Localnet.Config.Network
import Localnet.Json.Record

/-!
Configurations as JSON documents. A document within the document may be written as a string, which is
taken as it is, or as a value, which is kept in its written form.
-/

namespace Localnet

open Json (Value Reader)

/-- A document within a document; `null` is the empty text. -/
def embedded : Value → String
  | .null => ""
  | .text s => s
  | v => v.write

/-- A document within a document; `null` is none. -/
def embedded? : Value → Option String
  | .null => none
  | v => some (embedded v)

namespace NodeConfig

/-- The fields of a node, in the order of their declaration. -/
def fields (depth : Nat) : List (Json.Field NodeConfig) :=
  [.of "name" Json.text fun v node => { node with name := v },
   .of "isBeacon" Json.bool fun v node => { node with isBeacon := v },
   .of "stakingKey" Json.text fun v node => { node with stakingKey := v },
   .of "stakingCert" Json.text fun v node => { node with stakingCert := v },
   .of "implSpecificConfig" (Json.optional (Json.value depth)) fun v node =>
     { node with implDocument := v.bind embedded? },
   .of "configFile" (Json.optional (Json.value depth)) fun v node =>
     { node with configDocument := v.bind embedded? },
   .of "flags" (Json.table depth) fun v node => { node with flags := v }]

def reader : (depth : Nat) → Reader NodeConfig :=
  Json.record "struct NodeConfig" fields empty

/-- Reads a node from a document of its own. -/
def parse (text : String) : Except Json.Error NodeConfig :=
  Json.read (reader Json.depthLimit) text

/-- The node as a value, its members in the order of their declaration. -/
def toValue (node : NodeConfig) : Value :=
  .object <|
    [("name", .text node.name), ("isBeacon", .bool node.isBeacon),
      ("stakingKey", .text node.stakingKey), ("stakingCert", .text node.stakingCert)] ++
    node.implDocument.toList.map (("implSpecificConfig", .text ·)) ++
    node.configDocument.toList.map (("configFile", .text ·)) ++
    [("flags", .object node.flags.entries)]

end NodeConfig

namespace NetworkConfig

/-- The fields of a network, in the order of their declaration. -/
def fields (depth : Nat) : List (Json.Field NetworkConfig) :=
  [.of "name" Json.text fun v config => { config with name := v },
   .of "logLevel" (Json.optional Json.text) fun v config => { config with logLevel := v },
   .of "genesis" (Json.value depth) fun v config => { config with genesis := embedded v },
   .of "nodeConfigs" (Json.list NodeConfig.reader depth) fun v config => { config with nodes := v },
   .of "flags" (Json.table depth) fun v config => { config with flags := v }]

def reader : (depth : Nat) → Reader NetworkConfig :=
  Json.record "struct NetworkConfig" fields empty

/-- Reads a network from a document. -/
def parse (text : String) : Except Json.Error NetworkConfig :=
  Json.read (reader Json.depthLimit) text

/-- The network as a value, its members in the order of their declaration. -/
def toValue (config : NetworkConfig) : Value :=
  .object <|
    [("name", .text config.name)] ++
    config.logLevel.toList.map (("logLevel", .text ·)) ++
    [("genesis", .text config.genesis),
      ("nodeConfigs", .list (config.nodes.map NodeConfig.toValue)),
      ("flags", .object config.flags.entries)]

end NetworkConfig

/-- Reads flags from a document of their own. -/
def Flags.parse (text : String) : Except Json.Error Flags :=
  Json.read (Json.table Json.depthLimit) text

def Flags.write (flags : Flags) : String := (Value.object flags.entries).write

end Localnet
