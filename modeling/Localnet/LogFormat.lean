/-!
The two formats of the log.
-/

namespace Localnet

inductive LogFormat where
  | json
  | pretty
  deriving DecidableEq

/-- Reads a format, in letters of either case; a text that is none comes back in lower case. -/
def LogFormat.parse (text : String) : Except String LogFormat :=
  let lower := text.map Char.toLower
  if lower = "json" then .ok .json
  else if lower = "pretty" ∨ lower = "text" then .ok .pretty
  else .error lower

def LogFormat.unknown (text : String) : String := "Unknown log format: " ++ text

end Localnet
