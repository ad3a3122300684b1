import Localnet.FileTree
import Localnet.Process.Handle
import Localnet.Rehearsal.Shell

/-!
The programs of a rehearsal, and processes that run them.
-/

namespace Localnet.Rehearsal

structure Child where
  /-- How long it runs, in milliseconds. -/
  duration : Nat
  ending : ExitStatus

namespace Programs

/-- The directories in which programs are looked for that are named without one. -/
def searchPath : List FileTree.Place := [["usr", "bin"], ["bin"]]

def names : List String := ["true", "false", "sleep", "echo", "printf", "sh", "bash"]

def system : List (FileTree.Place × FileEntry) :=
  [["usr"], ["usr", "bin"], ["bin"], ["etc"], ["dev"]].map (·, FileEntry.dir) ++
  [(["etc", "passwd"], .file "root:x:0:0:root:/root:/bin/sh\n"), (["etc", "hosts"], .file "")] ++
  searchPath.flatMap fun dir => names.map fun name => (dir ++ [name], .file "")

def run (name : String) (args : List String) : Child :=
  match name, args with
  | "sh", "-c" :: script :: params | "bash", "-c" :: script :: params =>
    let (duration, ending) :=
      Shell.runScript script (if params = [] then [name] else params)
    ⟨duration, ending⟩
  | "false", _ => ⟨0, .code 1⟩
  | "sleep", seconds :: _ =>
    match Shell.milliseconds? seconds with
    | some n => ⟨n, .code 0⟩
    | none => ⟨0, .code 1⟩
  | "sleep", [] => ⟨0, .code 1⟩
  | "sh", _ :: _ => ⟨0, .code 2⟩
  | "bash", _ :: _ => ⟨0, .code 127⟩
  | _, _ => ⟨0, .code 0⟩

def programAt (files : FileTree) (place : FileTree.Place) : Except SystemError String :=
  match files.entry? place, place.getLast? with
  | none, _ => .error .notFound
  | some (.file _), some name =>
    if place.dropLast ∈ searchPath ∧ name ∈ names then .ok name else .error .permissionDenied
  | some _, _ => .error .permissionDenied

/-- The program that a name stands for; the search goes on where it may not be run. -/
def search (files : FileTree) (name : String) : Except SystemError String :=
  if name ∈ [".", ".."] then .error .permissionDenied
  else
    let found := searchPath.map fun dir => programAt files (dir ++ [name])
    match found.findSome? (·.toOption) with
    | some program => .ok program
    | none =>
      .error (if found.any fun | .error .permissionDenied => true | _ => false then .permissionDenied
        else .notFound)

/-- Launches the program at a path, or tells why that is not possible. -/
def launch (files : FileTree) (workDir : FileTree.Place) (path : String) (args : List String) :
    Except SystemError Child := do
  if (path :: args).any fun arg => '\x00' ∈ arg.toList then throw .nulInArgument
  let name ←
    if path = "" then throw .notFound
    else if '/' ∈ path.toList then
      programAt files (← files.find workDir path)
    else search files path
  return run name args

end Programs

/-- The end of a child that is seen now: by request if there is one, else by itself. -/
def endOf (handle : Handle) (child : Child) : Ending :=
  if handle.supervision.any (·.stopRequested) then .exited (.signal ExitStatus.terminate)
  else .exited child.ending

/-- Calls a handle, and lets its child and supervisor go on until the call is done. -/
def callHandle (files : FileTree) (workDir : FileTree.Place) (handle : Handle) (call : HandleCall) :
    Option (Except HandleFault Unit) × Handle :=
  let id := handle.calls.length
  let child := Programs.launch files workDir handle.binaryPath handle.args
  let ending := endOf handle (child.toOption.getD ⟨0, .code 0⟩)
  let moves : List HandleMove :=
    [.call call, .acquire id, .act id (child.map fun _ => ())] ++
    match call with
    | .start | .stop => []
    | .wait => [.noticeRequest, .childEnds ending, .noticeEnd, .reap, .observe id]
  let handle := moves.foldl (fun handle move => (handle.apply move).getD handle) handle
  (handle.result? id, handle)

def callAll (files : FileTree) (workDir : FileTree.Place) (handle : Handle) :
    List HandleCall → List (Option (Except HandleFault Unit))
  | [] => []
  | call :: calls =>
    let (result, handle) := callHandle files workDir handle call
    result :: callAll files workDir handle calls

end Localnet.Rehearsal
