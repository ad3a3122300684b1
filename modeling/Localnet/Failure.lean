import Localnet.SystemError

/-!
Failures as they are told: a message, and the messages of what caused it.
-/

namespace Localnet

structure Failure where
  message : String
  causes : List String
  deriving DecidableEq

namespace Failure

/-- A failure of the operating system, told as what was tried. -/
def ofSystem (tried : String) (e : SystemError) : Failure := ⟨tried, [e.describe]⟩

def because (message : String) (cause : Failure) : Failure :=
  ⟨message, cause.message :: cause.causes⟩

/-- A text whose lines but the first are indented. -/
def indented (margin : List Char) (text : String) : String :=
  String.ofList (text.toList.flatMap fun c => if c = '\n' then '\n' :: margin else [c])

/-- A single cause; several are numbered. -/
def causeLines : List String → List String
  | [] => []
  | [cause] => ["    " ++ indented "    ".toList cause]
  | causes => causes.mapIdx fun i cause => s!"    {i}: " ++ indented "       ".toList cause

def report (f : Failure) : List String :=
  ("Error: " ++ f.message) ::
    (if f.causes = [] then [] else ["", "Caused by:"] ++ causeLines f.causes)

end Failure

end Localnet
