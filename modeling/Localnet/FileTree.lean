import Localnet.Path
import Localnet.SystemError

/-!
Trees of files. A path is walked name by name, and two points lead one directory up.
-/

namespace Localnet

inductive FileEntry where
  | dir
  | file (text : String)
  deriving DecidableEq

/-- What lies below the topmost directory, each entry at the names that lead to it. -/
structure FileTree where
  entries : List (List String × FileEntry)

namespace FileTree

abbrev Place := List String

def empty : FileTree := ⟨[]⟩

def entry? (t : FileTree) (place : Place) : Option FileEntry :=
  if place = [] then some .dir else t.entries.lookup place

def put (t : FileTree) (place : Place) (entry : FileEntry) : FileTree :=
  ⟨(place, entry) :: t.entries.filter (·.1 ≠ place)⟩

/-- The greatest size of a name, in bytes. -/
def nameLimit : Nat := 255

/-- The place that a name leads to from a directory, whether anything is there or not. -/
def child (t : FileTree) (place : Place) (name : String) : Except SystemError Place :=
  match t.entry? place with
  | none => .error .notFound
  | some (.file _) => .error .notDirectory
  | some .dir =>
    if name = ".." then .ok place.dropLast
    else if nameLimit < name.utf8ByteSize then .error .nameTooLong
    else .ok (place ++ [name])

/-- The place that names lead to, which has to be there. -/
def walk (t : FileTree) (place : Place) : List String → Except SystemError Place
  | [] => .ok place
  | name :: rest => do
    let next ← t.child place name
    if (t.entry? next).isNone then throw .notFound
    walk t next rest

def checked (path : String) : Except SystemError Unit :=
  if '\x00' ∈ path.toList then .error .nulInPath
  else if path = "" then .error .notFound
  else .ok ()

/-- Where a path starts, in a tree with a working directory. -/
def origin (workDir : Place) (path : String) : Place :=
  if Path.isAbsolute path then [] else workDir

def find (t : FileTree) (workDir : Place) (path : String) : Except SystemError Place := do
  checked path
  let place ← t.walk (origin workDir path) (Path.components path)
  if Path.namesDir path ∧ t.entry? place ≠ some .dir then throw .notDirectory
  return place

def contains (t : FileTree) (workDir : Place) (path : String) : Bool :=
  (t.find workDir path).toBool

def read (t : FileTree) (workDir : Place) (path : String) : Except SystemError String := do
  match t.entry? (← t.find workDir path) with
  | some (.file text) => return text
  | some .dir => throw .isDirectory
  | none => throw .notFound

/-- Makes one directory, by the names that lead to it in reverse order. -/
def makeOne (t : FileTree) (place : Place) : List String → Except SystemError FileTree
  | [] => .error .exists
  | name :: above => do
    let parent ← t.walk place above.reverse
    let next ← t.child parent name
    if (t.entry? next).isSome then throw .exists
    return t.put next .dir

def leadsToDir (t : FileTree) (place : Place) (reversed : List String) : Bool :=
  match t.walk place reversed.reverse with
  | .ok place => t.entry? place == some .dir
  | .error _ => false

/-- Makes a directory and those above it, by the names that lead to it in reverse order. -/
def makeAll (t : FileTree) (place : Place) : List String → FileTree × Except SystemError Unit
  | [] => (t, .ok ())
  | name :: above =>
    match t.makeOne place (name :: above) with
    | .ok t => (t, .ok ())
    | .error .notFound =>
      match t.makeAll place above with
      | (t, .error e) => (t, .error e)
      | (t, .ok ()) =>
        match t.makeOne place (name :: above) with
        | .ok t => (t, .ok ())
        | .error e => (t, if t.leadsToDir place (name :: above) then .ok () else .error e)
    | .error e => (t, if t.leadsToDir place (name :: above) then .ok () else .error e)

/-- Makes a directory at a path and all that are missing on the way; nothing is at an empty path. -/
def makeDirs (t : FileTree) (workDir : Place) (path : String) : FileTree × Except SystemError Unit :=
  if path = "" then (t, .ok ())
  else
    match checked path with
    | .error e => (t, .error e)
    | .ok () => t.makeAll (origin workDir path) (Path.components path).reverse

/-- Makes a directory at a path, whose parent has to be there. -/
def makeDir (t : FileTree) (workDir : Place) (path : String) : Except SystemError FileTree := do
  checked path
  t.makeOne (origin workDir path) (Path.components path).reverse

def write (t : FileTree) (workDir : Place) (path text : String) : Except SystemError FileTree := do
  checked path
  if Path.namesDir path then throw .isDirectory
  match (Path.components path).reverse with
  | [] => throw .isDirectory
  | name :: above =>
    let parent ← t.walk (origin workDir path) above.reverse
    let next ← t.child parent name
    if t.entry? next = some .dir then throw .isDirectory
    return t.put next (.file text)

/-- What lies below a place, by the names from there. -/
def below (t : FileTree) (place : Place) : List (List String × FileEntry) :=
  t.entries.filterMap fun (found, entry) =>
    if place.isPrefixOf found ∧ found ≠ place then some (found.drop place.length, entry) else none

def remove (t : FileTree) (place : Place) : FileTree :=
  ⟨t.entries.filter fun entry => !place.isPrefixOf entry.1⟩

end FileTree

end Localnet
