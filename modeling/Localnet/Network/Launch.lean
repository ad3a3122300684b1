import Localnet.Genesis
import Localnet.Network.Node
import Localnet.Network.Registry

/-!
The files that a node is given, and the arguments that its process is launched with.
-/

namespace Localnet

open Json (Value)

/-- A network that is running: all of it that never changes. -/
structure Network where
  name : String
  networkId : NetworkId
  /-- The genesis document of every node. -/
  genesis : String
  /-- The flags of every node. -/
  flags : Flags
  /-- The directory that the nodes' directories are made in. -/
  root : String

/-- The paths of a node's files. -/
structure NodeFiles where
  genesis : String
  stakingKey : String
  stakingCert : String
  /-- Only for a node that has a config file. -/
  config : Option String

namespace NodeFiles

def ofDir (dir : String) (config : NodeConfig) : NodeFiles where
  genesis := Path.join dir "genesis.json"
  stakingKey := Path.join dir "staking.key"
  stakingCert := Path.join dir "staking.crt"
  config := config.configFile?.map fun _ => Path.join dir "config.json"

/-- The files in the order in which they are written, with their contents. -/
def contents (files : NodeFiles) (genesis : String) (config : NodeConfig) :
    List (String × String) :=
  [(files.genesis, genesis), (files.stakingKey, config.stakingKey),
    (files.stakingCert, config.stakingCert)] ++
  (files.config.toList.zip config.configFile?.toList)

end NodeFiles

namespace Endpoints

/-- The endpoints of a node with these settings, whose directory is `dir`. -/
def ofSettings (dir : String) (settings : NodeSettings) (httpPort stakingPort : Port) :
    Endpoints where
  httpPort := httpPort
  stakingPort := stakingPort
  dir := dir
  dbDir := settings.dbDir.getD (Path.join dir "db")
  logDir := settings.logDir.getD (Path.join dir "logs")

/-- The directories of a node, in the order in which they are made. -/
def dirs (endpoints : Endpoints) : List String :=
  [endpoints.dir, endpoints.dbDir, endpoints.logDir]

end Endpoints

namespace Network

def portValue (port : Port) : Value :=
  .ofNat port.toNat (Nat.lt_trans port.toNat_lt (by decide))

/-- What the network decides about a node's flags. -/
def resolvedFlags (network : Network) (endpoints : Endpoints) (files : NodeFiles)
    (bootstrap : List Beacon) : List (String × Value) :=
  [("network-id", Genesis.idValue network.networkId),
    ("db-dir", .text endpoints.dbDir),
    ("log-dir", .text endpoints.logDir),
    ("http-port", portValue endpoints.httpPort),
    ("staking-port", portValue endpoints.stakingPort),
    ("genesis", .text files.genesis),
    ("staking-tls-key-file", .text files.stakingKey),
    ("staking-tls-cert-file", .text files.stakingCert)] ++
  files.config.toList.map (("config-file", .text ·)) ++
  [("bootstrap-ips", .text (",".intercalate (bootstrap.map Beacon.address))),
    ("bootstrap-ids", .text (",".intercalate (bootstrap.map (toString ·.nodeId))))]

/-- The flags that a node is launched with: its own, and over them what the network decides. -/
def launchFlags (network : Network) (config : NodeConfig) (endpoints : Endpoints)
    (files : NodeFiles) (bootstrap : List Beacon) : Flags :=
  (network.resolvedFlags endpoints files bootstrap).foldl
    (fun flags entry => flags.insert entry.1 entry.2) config.flags

/-- The flags of one of its nodes: the node's own flags before the network's. -/
def flagsOf (network : Network) (node : NodeConfig) : Flags := network.flags.merge node.flags

end Network

end Localnet
