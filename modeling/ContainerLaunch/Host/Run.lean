import ContainerLaunch.Host.Action
/-!
# Running programs

A program is found by its path, or by its name along the search path of the
process.  It runs to its end or until the time for it is up, and a run that
came to its end is recorded.
-/

namespace ContainerLaunch

/-- How a program ended. -/
inductive Status where
  | exited (code : Nat)
  | signalled (number : Nat)
  deriving DecidableEq, Repr, Inhabited

namespace Status

/-- The names of the signals, with their numbers. -/
def signalNames : List (Nat × String) := [
  (1, "SIGHUP"), (2, "SIGINT"), (3, "SIGQUIT"), (4, "SIGILL"), (5, "SIGTRAP"), (6, "SIGABRT"),
  (7, "SIGBUS"), (8, "SIGFPE"), (9, "SIGKILL"), (10, "SIGUSR1"), (11, "SIGSEGV"), (12, "SIGUSR2"),
  (13, "SIGPIPE"), (14, "SIGALRM"), (15, "SIGTERM"), (16, "SIGSTKFLT"), (17, "SIGCHLD"),
  (18, "SIGCONT"), (19, "SIGSTOP"), (20, "SIGTSTP"), (21, "SIGTTIN"), (22, "SIGTTOU"),
  (23, "SIGURG"), (24, "SIGXCPU"), (25, "SIGXFSZ"), (26, "SIGVTALRM"), (27, "SIGPROF"),
  (28, "SIGWINCH"), (29, "SIGIO"), (30, "SIGPWR"), (31, "SIGSYS")]

def text : Status → String
  | .exited code => s!"exit status: {code}"
  | .signalled number =>
    match signalNames.lookup number with
    | some name => s!"signal: {number} ({name})"
    | none => s!"signal: {number}"

end Status

/-- How a run of a program ended. -/
inductive Ending where
  | ended (status : Status) (stderr : ByteArray)
  | outOfTime
  deriving Inhabited

namespace Host

/-- How long a program that hangs takes. -/
def hangTime : Duration := .ofSeconds 30

/-- The program at a path that can be executed. -/
def executable (h : Host) (p : Path) : Except IoError (Place × Program) := do
  let (place, inode) ← h.find p
  match inode.node with
  | .program behaviour =>
    if inode.executable then .ok (place, behaviour) else .error (.system .accessDenied)
  | .file _ =>
    if inode.executable then .error (.system .notExecutable) else .error (.system .accessDenied)
  | _ => .error (.system .accessDenied)

/-- The first of several candidates that can be executed; a candidate that is
not there or may not be executed gives way to the next one. -/
def firstExecutable (h : Host) (otherwise : Errno) :
    List Path → Except IoError (Place × Program)
  | [] => .error (.system otherwise)
  | p :: rest =>
    match h.executable p with
    | .error (.system errno) =>
      if errno = .noEntry ∨ errno = .notDirectory then h.firstExecutable otherwise rest
      else if errno = .accessDenied then h.firstExecutable errno rest
      else .error (.system errno)
    | r => r

/-- The program that a path or a name stands for. -/
def program (h : Host) (p : Path) : Except IoError (Place × Program) :=
  if p.text.toList.contains '/' then h.executable p
  else if p.hasNul then .error .nulInArgument
  else
    let directories := Text.pieces ':' (h.process.searchPath.getD "")
    h.firstExecutable .noEntry (directories.map fun d => Path.join ⟨d⟩ p)

end Host

namespace Action

/-- A program is run with arguments and ends within a time, or is stopped. -/
def run (p : Path) (arguments : List String) (limit : Duration) : Action Ending := do
  let (place, behaviour) ← check (.atPath p) fun h =>
    if p.hasNul || arguments.any fun a => a.toList.contains '\x00' then .error .nulInArgument
    else h.program p
  if behaviour.hangs && limit.nanoseconds < Host.hangTime.nanoseconds then
    return .outOfTime
  modify fun h => { h with runs := h.runs ++ [⟨place, arguments⟩] }
  let status := match behaviour.signal with
    | some number => Status.signalled number
    | none => .exited behaviour.exit
  return .ended status behaviour.stderr

end Action
end ContainerLaunch
