import Localnet.Text.Quoted

/-!
Failures of the operating system.
-/

namespace Localnet

inductive SystemError where
  | notFound
  | permissionDenied
  | exists
  | notDirectory
  | isDirectory
  | nameTooLong
  | unsupported
  | nulInPath
  /-- A NUL character in what a program is launched with. -/
  | nulInArgument
  deriving DecidableEq

def SystemError.describe : SystemError → String
  | .notFound => "No such file or directory (os error 2)"
  | .permissionDenied => "Permission denied (os error 13)"
  | .exists => "File exists (os error 17)"
  | .notDirectory => "Not a directory (os error 20)"
  | .isDirectory => "Is a directory (os error 21)"
  | .nameTooLong => "File name too long (os error 36)"
  | .unsupported => "Operation not supported (os error 95)"
  | .nulInPath => "file name contained an unexpected NUL byte"
  | .nulInArgument => "nul byte found in provided data"

structure PathFault where
  error : SystemError
  path : String

def PathFault.describe (fault : PathFault) : String :=
  fault.error.describe ++ " at path " ++ Text.quoted fault.path.toList

end Localnet
