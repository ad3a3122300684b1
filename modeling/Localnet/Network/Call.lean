import Localnet.Network.Operations

/-!
What callers ask of a network.
-/

namespace Localnet

inductive Call where
  | add (config : NodeConfig)
  | remove (name : String)
  | get (name : String)
  | names
  | all
  | stop

inductive Answer where
  | done
  | node (node : Node)
  | names (names : List String)
  | nodes (nodes : Table Node)

/-- The operation that a call stands for. -/
def Call.operation (network : Network) : Call → Operation Answer
  | .add config => .node <$> network.add config
  | .remove name => (fun () => .done) <$> Network.remove name
  | .get name => .node <$> Network.find name
  | .names => .names <$> Network.nodeNames
  | .all => .nodes <$> Network.allNodes
  | .stop => (fun () => .done) <$> Network.stop

end Localnet
