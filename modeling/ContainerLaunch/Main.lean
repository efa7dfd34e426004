import ContainerLaunch.CommandLine.Snapshot
/-!
# The program

The outer layer: a snapshot of the host is taken, the command is run on it, and
what the run says is printed and carried out.  The handoff region is reached as
the file behind its descriptor.  A task of the host side is served over the
standard streams if its socket is descriptor 0.
-/

namespace ContainerLaunch.Program

/-- The most that is read of a file. -/
def chunk : USize := 4194304

def find (p : Path) : IO Snapshot.Found := do
  try
    let handle ← IO.FS.Handle.mk p.text .read
    return .file (← handle.read chunk)
  catch e =>
    match e with
    | .inappropriateType .. => return .directory
    | _ => return .nothing

/-- The text at a path, empty if there is none. -/
def textAt (path : String) : IO String := do
  match ← find ⟨path⟩ with
  | .file content => return Text.readLossy content
  | _ => return ""

def bareHost : IO Host := do
  let directory ← try pure (some (Place.ofPath ⟨(← IO.currentDir).toString⟩)) catch _ => pure none
  let process := Snapshot.process (← textAt "/proc/self/status") (← textAt "/proc/self/stat")
    directory (← IO.getEnv "PATH")
  let users := Snapshot.directory (← textAt "/etc/passwd") (← textAt "/etc/group")
  return Snapshot.start (← textAt "/proc/sys/kernel/osrelease")
    (← textAt "/proc/sys/kernel/hostname") users process

/-- The host with the files that matter for a command. -/
def snapshot (command : Command) : IO Host := do
  let mut host ← bareHost
  for _ in List.range Snapshot.rounds do
    for path in Snapshot.wanted command host do
      unless host.exists? path do
        host := Snapshot.add host path (← find path)
  return host

/-- The file behind the descriptor of a region. -/
def regionFile (o : PrepareOptions) : Option Path :=
  o.region.map fun fd => ⟨"/proc/self/fd/" ++ Text.ofInt32 fd⟩

/-- The descriptors that the program was started with, as far as a command needs
them. -/
def inheritance : Command → IO Inheritance
  | .prepare o => do
    match o.region, regionFile o with
    | some fd, some path =>
      match ← find path with
      | .file content => return [(fd, Snapshot.inheritedRegion content)]
      | _ => return []
    | _, _ => return []
  | .afterStart o | .cleanup o => do
    if o.socket = 0 then
      let sent ← (← IO.getStdin).read 1
      return [(0, .socket ⟨sent.toList, .closed, .accepted⟩)]
    else return []
  | _ => return []

/-- What a run leaves is carried out. -/
def carryOut (command : Command) (before : Host) (s : Session) : IO Unit := do
  for (path, content) in Snapshot.written before s.host do
    IO.FS.writeBinFile path.text content
  for path in Snapshot.removed command before s.host do
    IO.FS.removeDirAll path.text
  match command, s.region with
  | .prepare o, some region =>
    if let some path := regionFile o then
      let handle ← IO.FS.Handle.mk path.text .readWrite
      handle.write region.octets
      handle.flush
  | _, _ => return ()

def report (s : Session) : IO UInt32 := do
  for notice in s.host.journal do
    IO.eprintln s!"WARN {notice.message}"
  IO.print s.output
  IO.eprint s.remarks
  let reply := s.events.filterMap Event.sent?
  (← IO.getStdout).write ⟨reply.toArray⟩
  return UInt32.ofNat (s.status.getD 1)

end ContainerLaunch.Program

open ContainerLaunch in
def main (arguments : List String) : IO UInt32 := do
  let command := (Command.read arguments).toOption.getD .help
  let host ← Program.snapshot command
  let session := Session.run arguments (← Program.inheritance command) host
  Program.carryOut command host session
  Program.report session
