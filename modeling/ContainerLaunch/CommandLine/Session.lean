import ContainerLaunch.CommandLine.Command
import ContainerLaunch.Mounts.Detaching
import ContainerLaunch.HostSide.Handshake
import ContainerLaunch.Launch.Prepare
/-!
# Running a command

What a run of the program makes of the host and of the descriptors that it was
started with: what is printed, how it ends, what the handoff region holds and
what the launcher was answered.
-/

namespace ContainerLaunch

/-- What a descriptor that the program was started with refers to. -/
inductive Inherited where
  | region (size : Nat) (stage : NativeStage)
  | socket (peer : Peer)
  | other
  deriving Inhabited

/-- The descriptors that the program was started with. -/
abbrev Inheritance := List (Int32 × Inherited)

/-- A run of the program that came to its end, or waits without end. -/
structure Session where
  /-- The exit code, unless the run does not end. -/
  status : Option Nat
  output : String
  remarks : String
  /-- The handoff region, if something was published. -/
  region : Option Region
  events : List Event
  host : Host
  deriving Inhabited

namespace Session

def versionText : String := "stagehand version 0.1.0\n"

def helpLines : List String := [
  "stagehand - container launch preparation",
  "",
  "USAGE:",
  "    stagehand <command> [options]",
  "",
  "COMMANDS:",
  "    prepare                 Build the launch plan and publish it to the starter",
  "    post-start-host         Serve the post-start handshake",
  "    cleanup-host            Serve the cleanup handshake",
  "    version                 Show version info",
  "    help                    Show this help",
  "",
  "OPTIONS:",
  "    --engine-config <file>  Engine configuration (JSON)",
  "    --policy <file>         Administrator configuration (YAML)",
  "    --capabilities <file>   Capability authorization table (JSON)",
  "    --starter-fd <n>        Shared starter region descriptor",
  "    --socket-fd <n>         Lifecycle socket descriptor",
  "    --dry-run               Print the plan instead of publishing it",
  "",
  "ENVIRONMENT:",
  "    STAGEHAND_LOG           error, warn, info, debug or trace (default: warn)",
  "",
  ""]

def helpText : String := Text.join "\n" helpLines

/-- A run that printed something and succeeded. -/
def printed (output : String) (h : Host) : Session := ⟨some 0, output, "", none, [], h⟩

def failed (reason : String) (h : Host) : Session :=
  ⟨some 1, "", s!"error: {reason}\n", none, [], h⟩

/-- How long a trigger is waited for; a cleanup waits as long as it takes. -/
def triggerLimit : HostTask → Option Duration
  | .afterStart => some (.ofSeconds 300)
  | .cleanup => none

def regionAt (inherited : Inheritance) (fd : Int32) : Except Error Region :=
  match inherited.lookup fd with
  | none => .error (.call "fstat" .badDescriptor)
  | some (.region size stage) => Region.ofFile size stage
  | some (.socket _) | some .other => Region.ofFile 0 ⟨false, 0⟩

/-- Whether a launch is privileged: the native stage says so, or without it the
program runs with more rights than its user has. -/
def isPrivileged (region : Option Region) (c : Credentials) : Bool :=
  match region with
  | some r => r.stage.isSuid
  | none => c.euid == 0 && c.uid != 0

def sourcesFor (o : PrepareOptions) : AdminPaths :=
  { AdminPaths.default with
    config := o.policy.getD AdminPaths.default.config
    capability := o.capabilities.getD AdminPaths.default.capability }

/-- A launch is prepared, and published if there is a region and the plan is not
only to be printed. -/
def prepareAction (o : PrepareOptions) (inherited : Inheritance) :
    Action (ReadyLaunch × Option Region) := do
  let config ← Action.ofExcept (LaunchConfig.load (← get) o.config)
  let region ← Action.ofExcept (o.region.mapM (regionAt inherited))
  let h ← get
  let facts := Facts.ofHost h (isPrivileged region h.process.credentials)
  let launcher := Launcher.usual (sourcesFor o) facts h.process.searchPath
  let prepared ← launcher.prepare config
  match region with
  | some region =>
    if o.dryRun then return (prepared, none)
    else return (prepared, some (← prepared.publish region))
  | none => return (prepared, none)

def prepare (o : PrepareOptions) (inherited : Inheritance) (h : Host) : Session :=
  match (prepareAction o inherited).perform h with
  | (.error e, h) => failed e.message h
  | (.ok (prepared, none), h) => printed ((Plan.schema.write prepared.plan).pretty ++ "\n") h
  | (.ok (prepared, some region), h) =>
    ⟨some 0, "", s!"Prepared launch of {prepared.config.image}\n", some region, [], h⟩

def ofConversation (c : Conversation) (h : Host) : Session :=
  let h := c.notices.foldl Host.tell h
  let ended : Session :=
    match c.outcome with
    | none => { printed "" h with status := none }
    | some (.ok ()) => printed "" h
    | some (.error e) => failed e.message h
  { ended with events := c.events }

/-- The run of a task of the host side. -/
def serve (task : HostTask) (o : TaskOptions) (inherited : Inheritance) (h : Host) : Session :=
  match LaunchConfig.load h o.config with
  | .error e => failed e.message h
  | .ok config =>
    match inherited.lookup o.socket with
    | none => failed (IoError.system .badDescriptor).message h
    | some (.socket peer) =>
      let work := task.perform UnmountHelper.usual.unmount (.ofConfig config)
      let (conversation, h) := (Handshake.serve peer (triggerLimit task) work).run h
      ofConversation conversation h
    | some _ => failed (IoError.system .notPermitted).message h

/-- A run of the program with some arguments. -/
def run (arguments : List String) (inherited : Inheritance) (h : Host) : Session :=
  match Command.read arguments with
  | .error e => { failed e.message h with output := helpText }
  | .ok .version => printed versionText h
  | .ok .help => printed helpText h
  | .ok (.prepare o) => prepare o inherited h
  | .ok (.afterStart o) => serve .afterStart o inherited h
  | .ok (.cleanup o) => serve .cleanup o inherited h

end Session
end ContainerLaunch
