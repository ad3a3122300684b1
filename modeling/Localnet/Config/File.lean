import Localnet.Config.Toml
import Localnet.Failure
import Localnet.Path

/-!
Configuration files. A file whose extension is `toml` holds TOML, every other one JSON.
-/

namespace Localnet

/-- Why the contents of a file could not be had. -/
inductive FileFault where
  | system (e : SystemError)
  | notText

def FileFault.describe : FileFault → String
  | .system e => e.describe
  | .notText => "stream did not contain valid UTF-8"

/-- Why a configuration file could not be loaded. -/
inductive LoadError where
  | unreadable (path : String) (fault : FileFault)
  | json (path : String) (e : Json.Error)
  | toml (path : String)

/-- What is wrong in a TOML document is not told. -/
def LoadError.failure : LoadError → Failure
  | .unreadable path fault => ⟨"Failed to read network config " ++ path, [fault.describe]⟩
  | .json path e => ⟨"Failed to parse JSON config " ++ path, [e.message]⟩
  | .toml path => ⟨"Failed to parse TOML config " ++ path, []⟩

/-- The text in the bytes of a file. -/
def fileText (bytes : ByteArray) : Except FileFault String :=
  match String.fromUTF8? bytes with
  | some text => .ok text
  | none => .error .notText

/-- Loads a configuration from the contents of the file at a path. -/
def NetworkConfig.load (path : String) (contents : Except SystemError ByteArray) :
    Except LoadError NetworkConfig :=
  match (contents.mapError .system).bind fileText with
  | .error fault => .error (.unreadable path fault)
  | .ok text =>
    if Path.extension? path = some "toml" then
      match parseToml text with
      | some config => .ok config
      | none => .error (.toml path)
    else (parse text).mapError (.json path)

end Localnet
