import Localnet.Config.Node
import Localnet.Validation.Error

/-!
Names of nodes. A node without a name gets one with a number.
-/

namespace Localnet.Names

/-- The name with a number. -/
def generated (n : Nat) : String := s!"node-{n}"

/-- The names of nodes in order, where the generated ones are numbered from `next` on. -/
def resolveFrom (next : Nat) : List NodeConfig → List String
  | [] => []
  | node :: rest =>
    if node.name = "" then generated next :: resolveFrom (next + 1) rest
    else node.name :: resolveFrom next rest

def resolve (nodes : List NodeConfig) : List String := resolveFrom 0 nodes

/-- How many of the nodes get a generated name. -/
def generatedCount (nodes : List NodeConfig) : Nat :=
  (nodes.filter (·.name = "")).length

/-- Fails at the first name that was there before. -/
def ensureUniqueAfter (seen : List String) : List String → Except ValidationError Unit
  | [] => .ok ()
  | name :: rest =>
    if name ∈ seen then .error (.duplicateName name) else ensureUniqueAfter (name :: seen) rest

def ensureUnique (names : List String) : Except ValidationError Unit :=
  ensureUniqueAfter [] names

/-- The first number from `next` on whose name is free, after at most `tries` names that are not. -/
def firstFree (taken : String → Bool) (next : Nat) : (tries : Nat) → Nat
  | 0 => next
  | tries + 1 => if taken (generated next) then firstFree taken (next + 1) tries else next

/-- The next generated name that is not among those taken, and the number after it. Among as many
numbers as names are taken, and one more, there is one that is free. -/
def nextFree (next : Nat) (taken : List String) : String × Nat :=
  let n := firstFree (taken.contains ·) next taken.length
  (generated n, n + 1)

@[simp] theorem length_resolveFrom (next : Nat) (nodes : List NodeConfig) :
    (resolveFrom next nodes).length = nodes.length := by
  induction nodes generalizing next with
  | nil => rfl
  | cons node rest ih => unfold resolveFrom; split <;> simp [ih]

end Localnet.Names
