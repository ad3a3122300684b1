import Localnet.Validation.Error

/-!
The document of a node's implementation: the binary to run, and settings beside it.
-/

namespace Localnet

open Json (Value)

structure ImplDocument where
  binaryPath : Option String
  settings : NodeSettings
  deriving DecidableEq

namespace ImplDocument

def binaryPathField : String := "binaryPath"

/-- Reads the members of a document, the binary first. -/
def ofMembers (members : List (String × Value)) : Except FieldFault ImplDocument := do
  let binaryPath ←
    declared? (Members.find? · members) .implDocument binaryPathField .text asText?
  let settings ← NodeSettings.ofMembers members .implDocument
  return ⟨binaryPath, settings⟩

def parse (text node : String) : Except ValidationError ImplDocument :=
  match Json.parseObject text with
  | .error fault => .error (.malformedImplDocument node fault)
  | .ok members => (ofMembers members).mapError (.fieldType node)

/-- The document that names a binary and nothing else. -/
def forBinary (path : String) : String :=
  (Value.object [(binaryPathField, .text path)]).write

end ImplDocument

/-- The settings in the config file of the node with a label. -/
def NodeSettings.ofConfigFile (text node : String) : Except ValidationError NodeSettings :=
  match Json.parseObject text with
  | .error fault => .error (.malformedConfigFile node fault)
  | .ok members => (ofMembers members .configFile).mapError (.fieldType node)

end Localnet
