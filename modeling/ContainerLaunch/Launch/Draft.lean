import ContainerLaunch.Capability.Grant
import ContainerLaunch.Facts
import ContainerLaunch.Handoff.Plan
import ContainerLaunch.Image.Load
import ContainerLaunch.Launch.Configuration
import ContainerLaunch.Policy.Files
/-!
# Drafts of a launch

A draft is what has been worked out so far: the configuration, the plan, and the
files that are open for them.  The steps of a preparation turn one draft into
the next.  The steps here are those that new containers and joined instances
share.
-/

namespace ContainerLaunch

/-- What a preparation depends on beside the request. -/
structure Launcher where
  sources : AdminPaths
  /-- What is known about the host. -/
  facts : Facts
  inspect : SifReader
  fuseDevice : Path
  searchPath : Option String

/-- What has been worked out so far. -/
structure Draft where
  config : LaunchConfig
  plan : Plan
  images : List Image
  held : List OpenFile
  deriving Inhabited

namespace Draft

/-- A descriptor number as a plan has it. -/
def descriptor (f : OpenFile) : Int32 := FuseMount.recorded f.number

/-- The draft before anything is worked out. -/
def start (config : LaunchConfig) : Draft := ⟨config, .empty, [], []⟩

/-- A draft whose plan keeps one more descriptor. -/
def keep (d : Draft) (fd : Int32) : Except Error Draft := do
  return { d with plan := ← d.plan.keep fd }

/-- A draft that also keeps a file open. -/
def keepFile (d : Draft) (f : OpenFile) : Except Error Draft := do
  let d ← d.keep (descriptor f)
  return { d with held := d.held ++ [f] }

/-- A draft that also keeps several files open. -/
def keepFiles (d : Draft) (fs : List OpenFile) : Except Error Draft :=
  fs.foldlM keepFile d

/-- A draft with a current directory; where it cannot be told it is the root, and
the user is told. -/
def withDirectory (d : Draft) : Action Draft := do
  if d.config.cwd.isSome then return d
  match ← Action.observe Host.currentDirectory with
  | some directory => return { d with config := { d.config with cwd := some directory } }
  | none =>
    Action.notify .noWorkingDirectory
    return { d with config := { d.config with cwd := some ⟨"/"⟩ } }

/-- Whether the superuser asks to run as somebody else. -/
def asksForTarget (c : LaunchConfig) (caller : Caller) : Bool :=
  caller.isSuperuser && (c.targetUid != 0 || !c.targetGids.isEmpty)

/-- A draft for somebody else than the superuser, without new privileges, if the
superuser asks for that. -/
def withTarget (d : Draft) (caller : Caller) : Action Draft := do
  if asksForTarget d.config caller then
    Action.notifyAll (Plan.gidNotices d.config.targetGids)
    let plan := { d.plan with targetUid := d.config.targetUid }
    return { d with
      plan := plan.withTargetGids d.config.targetGids
      config := { d.config with
        process := { d.config.process with noNewPrivileges := true } } }
  else return d

/-- A draft with the information about the user of the container. -/
def withUserInfo (d : Draft) (caller : Caller) (useTarget : Bool) : Action Draft := do
  let users ← Action.observe Host.users
  let target :=
    if useTarget then some ⟨d.config.targetUid, d.config.targetGids⟩ else none
  return { d with
    config := { d.config with userInfo := some (ContainerUser.describe users caller target) } }

/-- What a configuration asks for in capabilities. -/
def capabilityRequest (c : LaunchConfig) (targetIds : Bool) : CapabilityDemand where
  add := c.addCaps
  drop := c.dropCaps
  existing := c.process.capabilities.permitted
  noPrivileges := c.noPrivs
  keepPrivileges := c.keepPrivs
  targetIds := targetIds && !c.fakeroot

/-- What a caller is given in capabilities; `enforced` says that the table has to
grant them to anybody but the superuser. -/
def grant (policy : AdminFiles) (caller : Caller) (enforced : Bool) (r : CapabilityDemand) :
    Grant :=
  if caller.isSuperuser then
    .forRoot caller policy.capabilities policy.policy.rootCapabilities r
  else .forUser caller policy.capabilities enforced r

/-- A draft with the capabilities of the process. -/
def withCapabilities (d : Draft) (policy : AdminFiles) (caller : Caller)
    (enforced targetIds : Bool) : Action Draft := do
  let given := grant policy caller enforced (capabilityRequest d.config targetIds)
  Action.notifyAll given.notices
  let process := d.config.process
  return { d with
    config := { d.config with
      process := { process with
        noNewPrivileges := process.noNewPrivileges || given.noNewPrivileges
        capabilities := .uniform given.set } } }

def seccompProfile (h : Host) (p : Path) : Except Error Json :=
  match h.readText p with
  | .error cause => .error (.atPath p cause)
  | .ok text =>
    match Json.parse text >>= Json.settled 127 with
    | some profile => .ok profile
    | none => .error (.malformed "not a seccomp profile")

/-- The seccomp profile that a configuration asks for, if any. -/
def seccompOption (h : Host) (c : LaunchConfig) : Except Error (Option Json) :=
  match c.securityOption "seccomp" with
  | some file => (seccompProfile h ⟨file⟩).map some
  | none => .ok none

/-- A draft with the security options applied to the process. -/
def withSecurity (d : Draft) : Action Draft := do
  let h ← Action.observe id
  let seccomp ← Action.ofExcept (seccompOption h d.config)
  let process := d.config.process
  return { d with
    config := { d.config with
      process := { process with
        selinuxLabel := (d.config.securityOption "selinux").or process.selinuxLabel
        apparmorProfile := (d.config.securityOption "apparmor").or process.apparmorProfile
        seccomp := seccomp.or process.seccomp } } }

end Draft
end ContainerLaunch
