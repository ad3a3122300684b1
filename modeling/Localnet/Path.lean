/-!
Paths of files, as texts with slashes.
-/

namespace Localnet.Path

def parts : List Char → List (List Char)
  | [] => [[]]
  | c :: rest =>
    match parts rest with
    | first :: others => if c = '/' then [] :: first :: others else (c :: first) :: others
    | [] => [[c]]

def isAbsolute (path : String) : Bool := path.toList.head? == some '/'

/-- The names on the way, without those that lead nowhere. -/
def components (path : String) : List String :=
  ((parts path.toList).filter fun part => part ≠ [] ∧ part ≠ ['.']).map String.ofList

/-- Whether a path leads to a directory if it leads anywhere: nothing but a point may stand behind its
last slash. -/
def namesDir (path : String) : Bool :=
  (parts path.toList).getLast?.any fun part => part == [] || part == ['.']

/-- A path below another; an absolute path stands alone. -/
def join (base path : String) : String :=
  if isAbsolute path then path
  else if base = "" ∨ base.toList.getLast? = some '/' then base ++ path
  else base ++ "/" ++ path

/-- The last name of a path, unless it leads up. -/
def fileName? (path : String) : Option String :=
  (components path).getLast?.filter (· ≠ "..")

/-- What stands behind the last point of the file name, if something stands before it. -/
def extension? (path : String) : Option String := do
  let name ← fileName? path
  let after := name.toList.reverse.takeWhile (· ≠ '.')
  guard (after.length + 1 < name.length ∧ '.' ∈ name.toList)
  return String.ofList after.reverse

end Localnet.Path
