import Localnet.Network.Node
import Localnet.Table

/-!
What a network knows of its nodes.
-/

namespace Localnet

/-- A node that others bootstrap from. -/
structure Beacon where
  name : String
  nodeId : NodeId
  stakingPort : Port
  deriving DecidableEq

/-- The address that others reach it at. -/
def Beacon.address (beacon : Beacon) : String :=
  s!"{localhost}:{beacon.stakingPort.toNat}"

structure Registry where
  nodes : Table Node
  /-- In the order in which they were registered. -/
  beacons : List Beacon
  /-- The ports of the nodes, each once. -/
  ports : List Port
  /-- The number of the next generated name. -/
  nextNumber : Nat
  stopped : Bool

namespace Registry

def empty (nextNumber : Nat) : Registry := ⟨∅, [], [], nextNumber, false⟩

def holdPort (ports : List Port) (port : Port) : List Port :=
  if port ∈ ports then ports else port :: ports

def releasePort (ports : List Port) (port : Port) : List Port := ports.filter (· ≠ port)

def beaconOf? (node : Node) : Option Beacon :=
  if node.isBeacon then some ⟨node.name, node.nodeId, node.endpoints.stakingPort⟩ else none

/-- Takes a node in, under its name. -/
def register (r : Registry) (node : Node) : Registry :=
  { r with
    nodes := r.nodes.insert node.name node
    beacons := r.beacons ++ (beaconOf? node).toList
    ports := holdPort (holdPort r.ports node.endpoints.httpPort) node.endpoints.stakingPort }

/-- Takes a node out, and releases its ports. -/
def unregister (r : Registry) (node : Node) : Registry :=
  { r with
    nodes := r.nodes.erase node.name
    beacons := r.beacons.filter (·.name ≠ node.name)
    ports := releasePort (releasePort r.ports node.endpoints.httpPort) node.endpoints.stakingPort }

/-- Takes all nodes out. -/
def clear (r : Registry) : Registry := { r with nodes := ∅, beacons := [], ports := [] }

end Registry

end Localnet
