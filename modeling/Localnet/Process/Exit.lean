/-!
How processes end.
-/

namespace Localnet

inductive ExitStatus where
  | code (code : Nat)
  | signal (number : Nat)
  deriving DecidableEq

namespace ExitStatus

def isSuccess (status : ExitStatus) : Bool := status == .code 0

/-- The names of the signals, from the first on. -/
def signalNames : List String :=
  ["SIGHUP", "SIGINT", "SIGQUIT", "SIGILL", "SIGTRAP", "SIGABRT", "SIGBUS", "SIGFPE", "SIGKILL",
    "SIGUSR1", "SIGSEGV", "SIGUSR2", "SIGPIPE", "SIGALRM", "SIGTERM", "SIGSTKFLT", "SIGCHLD",
    "SIGCONT", "SIGSTOP", "SIGTSTP", "SIGTTIN", "SIGTTOU", "SIGURG", "SIGXCPU", "SIGXFSZ",
    "SIGVTALRM", "SIGPROF", "SIGWINCH", "SIGIO", "SIGPWR", "SIGSYS"]

def signalName? (number : Nat) : Option String :=
  if number = 0 then none else signalNames[number - 1]?

def terminate : Nat := 15

def describe : ExitStatus → String
  | .code n => s!"exit status: {n}"
  | .signal n =>
    s!"signal: {n}" ++ ((signalName? n).map (" (" ++ · ++ ")")).getD ""

end ExitStatus

/-- The end of a child: its status, unless that could not be learnt. -/
inductive Ending where
  | exited (status : ExitStatus)
  | lost (reason : String)
  deriving DecidableEq

def Ending.isSuccess : Ending → Bool
  | .exited status => status.isSuccess
  | .lost _ => false

end Localnet
