import Localnet.Json.Document

/-!
Documents that have to be objects.
-/

namespace Localnet.Json

inductive ObjectFault where
  | unreadable (e : Error)
  | notObject (found : Value)

def ObjectFault.describe : ObjectFault → String
  | .unreadable e => e.message
  | .notObject found => "expected a JSON object, got " ++ found.write

def parseObject (text : String) : Except ObjectFault (List (String × Value)) :=
  match Value.parse text with
  | .error e => .error (.unreadable e)
  | .ok (.object members) => .ok members
  | .ok found => .error (.notObject found)

theorem parseObject_eq_ok_iff {text : String} {members : List (String × Value)} :
    parseObject text = .ok members ↔ Value.parse text = .ok (.object members) := by
  unfold parseObject
  split <;> simp_all

end Localnet.Json
