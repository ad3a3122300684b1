import Localnet.Network.Launch
import Localnet.Network.Request
import Localnet.Validation

/-!
The operations on a network. All of them but the creation hold the registry from their start to their
end, and fail once the network is stopped.
-/

namespace Localnet.Network

/-- How often the host is asked for a port before that counts as a failure. -/
def portAttempts : Nat := 16

/-- How long a request to a node's API may take, in milliseconds. -/
def requestTimeout : Nat := 10000

/-- An unused port that is not taken. -/
def pickPort (taken : Port → Bool) : (attempts : Nat) → Setup Port
  | 0 => throw ⟨"No free port available", []⟩
  | attempts + 1 => do
    match ← ExceptT.lift (Task.ask .unusedPort) with
    | some port => if taken port then pickPort taken attempts else return port
    | none => pickPort taken attempts

/-- The identity that a node brings, or a new one. -/
def identityOf (valid : ValidatedNode) : Setup StakingIdentity :=
  match valid.staking with
  | some identity => return identity
  | none => ExceptT.mk (Task.ask .identity)

/-- The ports that a node declares. Others are picked among those that neither a registered node nor
the node itself holds. -/
def portsOf (settings : NodeSettings) : Setup (Port × Port) := do
  let held := (← Task.registry).ports
  let httpPort ←
    match settings.httpPort with
    | some port => pure port
    | none =>
      pickPort (fun port => port ∈ held ∨ settings.stakingPort = some port) portAttempts
  let stakingPort ←
    match settings.stakingPort with
    | some port => pure port
    | none => pickPort (fun port => port ∈ held ∨ port = httpPort) portAttempts
  return (httpPort, stakingPort)

def makeDirs : List String → Setup Unit
  | [] => return ()
  | path :: rest => do
    Setup.ofSystem ("Failed to create " ++ path) (Task.ask (.makeDir path))
    makeDirs rest

def writeFiles : List (String × String) → Setup Unit
  | [] => return ()
  | (path, text) :: rest => do
    Setup.ofSystem ("Failed to write " ++ path) (Task.ask (.writeFile path text))
    writeFiles rest

/-- The configuration in use of a node. -/
def configInUse (network : Network) (config : NodeConfig) (name : String)
    (identity : StakingIdentity) : NodeConfig :=
  { config with
    name := name
    flags := network.flagsOf config
    stakingKey := identity.key
    stakingCert := identity.cert }

/-- A client of a process that was started. Without one the process is stopped again. -/
def connectTo (node : String) (process : Process) (port : Port) : Setup Client := do
  match ← ExceptT.lift (Task.ask (.connect node localhost port requestTimeout)) with
  | .ok client => return client
  | .error failure =>
    let _ ← ExceptT.lift (Task.ask (.stop process))
    throw failure

/-- Sets a node up: its identity, ports and files, its process and its client. -/
def setUp (network : Network) (config : NodeConfig) (name : String) (valid : ValidatedNode) :
    Setup Node := do
  let identity ← identityOf valid
  let config := network.configInUse config name identity
  let (httpPort, stakingPort) ← portsOf valid.settings
  let endpoints :=
    Endpoints.ofSettings (Path.join network.root name) valid.settings httpPort stakingPort
  let files := NodeFiles.ofDir endpoints.dir config
  makeDirs endpoints.dirs
  writeFiles (files.contents network.genesis config)
  let bootstrap := (← Task.registry).beacons.filter (·.name ≠ name)
  let args := Flags.arguments (network.launchFlags config endpoints files bootstrap)
  let process ← ExceptT.mk (Task.ask (.launch config args))
  ExceptT.mk (Task.ask (.start process))
  let client ← connectTo name process httpPort
  return ⟨name, identity.nodeId, config, endpoints, client, process⟩

/-- Sets a node up and registers it. Nothing is registered on failure. -/
def startNode (network : Network) (config : NodeConfig) (name : String) (valid : ValidatedNode) :
    Operation Node := do
  let node ← (network.setUp config name valid).forNode name
  Task.modifyRegistry (·.register node)
  return node

/-- Starts nodes one after the other, each under its name. -/
def startNodes (network : Network) :
    List (NodeConfig × String × ValidatedNode) → Operation Unit
  | [] => return ()
  | (config, name, valid) :: rest => do
    let _ ← network.startNode config name valid
    startNodes network rest

/-- Checks a configuration, makes the network's directory and starts all nodes. The first failure
ends it; nodes that are running by then are left alone. -/
def create (config : NetworkConfig) : Operation Network := do
  let valid ← ExceptT.mk (pure ((Validation.validate config).mapError .invalid))
  let root ← ExceptT.adapt NetworkError.io (ExceptT.mk (Task.ask .makeRoot))
  let network : Network :=
    ⟨config.name, valid.networkId, config.genesis, config.effectiveFlags, root⟩
  Task.setRegistry (.empty valid.generated)
  network.startNodes (config.nodes.zip (valid.names.zip valid.nodes))
  return network

/-- The registry of a network that is not stopped. -/
def running : Operation Registry := do
  let r ← Task.registry
  if r.stopped then throw .stopped else return r

/-- What messages call a node that is to be added. -/
def addedLabel (config : NodeConfig) : String :=
  if config.name = "" then "(unnamed)" else config.name

/-- The name of a node that is to be added. A generated one counts as used from now on. -/
def addedName (config : NodeConfig) : Task String := do
  if config.name = "" then
    let r ← Task.registry
    let (name, nextNumber) := Names.nextFree r.nextNumber r.nodes.names
    Task.setRegistry { r with nextNumber }
    return name
  else return config.name

/-- Starts one more node. -/
def add (network : Network) (config : NodeConfig) : Operation Node := do
  let _ ← running
  let valid ← ExceptT.mk <| pure <|
    (Validation.validateNode config (addedLabel config) (network.flagsOf config)
      network.networkId).mapError .invalid
  let name ← ExceptT.lift (addedName config)
  if (← Task.registry).nodes.contains name then throw (.invalid (.duplicateName name))
  network.startNode config name valid

/-- Closes a node's client, then asks its process to stop. -/
def shutDown (node : Node) : Task (Except Failure Unit) := do
  Task.ask (.close node.client)
  Task.ask (.stop node.process)

def find (name : String) : Operation Node := do
  match (← running).nodes.get? name with
  | some node => return node
  | none => throw (.nodeNotFound name)

/-- Takes a node out and shuts it down. It is gone even if its process does not stop. -/
def remove (name : String) : Operation Unit := do
  let node ← find name
  Task.modifyRegistry (·.unregister node)
  let _ ← ExceptT.lift (shutDown node)

def nodeNames : Operation (List String) := return (← running).nodes.names

def allNodes : Operation (Table Node) := return (← running).nodes

/-- Shuts nodes down one by one. Side by side it would come to the same: `stop_in_any_order`. -/
def shutDownAll : List Node → Task Unit
  | [] => return ()
  | node :: rest => do
    let _ ← shutDown node
    shutDownAll rest

/-- Takes all nodes out and shuts them down, in the order of their names. -/
def stop : Operation Unit := do
  let r ← running
  Task.setRegistry r.clear
  shutDownAll r.nodes.values
  Task.modifyRegistry ({ · with stopped := true })

end Localnet.Network
