import Localnet.Json.Record
import Localnet.NodeId

/-!
Node ids as documents: a JSON string that holds the text of an id.
-/

namespace Localnet.NodeId

inductive DocumentFault where
  | json (e : Json.Error)
  | id (fault : Fault)

def DocumentFault.message : DocumentFault → String
  | .json e => e.message
  | .id fault => fault.describe

def toValue (id : NodeId) : Json.Value := .text (toString id)

/-- The id in a document. The string has to hold one before what follows it is looked at. -/
def ofDocument (text : String) : Except DocumentFault NodeId :=
  let located {α : Type} (e : Except Json.Fault α) : Except DocumentFault α :=
    e.mapError fun fault => .json (fault.locate text.toList)
  do
    let (content, rest) ← located (Json.text text.toList)
    let id ← (parse content).mapError .id
    located (Json.ended rest)
    return id

end Localnet.NodeId
