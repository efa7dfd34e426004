import ContainerLaunch.Handoff.Region
import ContainerLaunch.Image.Sif
import ContainerLaunch.Launch.ImageStack
import ContainerLaunch.Launch.NewContainer
import ContainerLaunch.Launch.RunningInstance
/-!
# Preparing a launch

The whole way from a request to a plan: the policy is loaded, the container is
prepared or an instance joined, and the descriptors that the next stage needs
are opened.  What was opened stays open with the result, and is closed again if
the preparation fails.
-/

namespace ContainerLaunch

/-- A launch that is ready, with every descriptor that its plan names. -/
structure ReadyLaunch where
  plan : Plan
  config : LaunchConfig
  images : List Image
  held : List OpenFile
  socketPair : Nat × Nat
  deriving Inhabited

namespace ReadyLaunch

/-- The configuration as the next stage reads it. -/
def payload (p : ReadyLaunch) : ByteArray :=
  Text.octets p.config.payload

/-- The launch is handed to the next stage. -/
def publish (p : ReadyLaunch) (r : Region) : Action Region :=
  r.publish p.plan p.payload

end ReadyLaunch

namespace Action

variable {α : Type}

/-- What an action opened is closed again if it fails. -/
def closingOnError (a : Action α) : Action α := do
  let before ← observe Host.descriptors
  tryCatch a fun e => do
    modify fun h =>
      { h with descriptors := h.descriptors.filter fun d =>
          before.any fun b => b.number == d.number }
    fail e

end Action

namespace Launcher

/-- A launcher with the usual device and reader of SIF files, for a host. -/
def usual (sources : AdminPaths) (facts : Facts) (searchPath : Option String) : Launcher where
  sources := sources
  facts := facts
  inspect := SifContents.inspect
  fuseDevice := FuseMount.device
  searchPath := searchPath

/-- The administrator's files, if the launch may be privileged as it is. -/
def loadPolicy (l : Launcher) (c : LaunchConfig) (h : Host) : Except Error AdminFiles := do
  let sources :=
    l.sources.override c.configurationFile l.facts.suidInstall l.facts.caller.euid
  let policy ← sources.load h l.facts.isSuid
  if l.facts.isSuid && !policy.policy.allowSetuid then
    .error (.disallowed "the setuid workflow (allow-setuid: no)")
  else .ok policy

/-- The draft of a container that is started. -/
def draftFresh (l : Launcher) (policy : AdminFiles) (targetIds : Bool) (d : Draft) :
    Action Draft := do
  let d ← d.withUserInfo l.facts.caller targetIds
  let d ← d.fresh l policy targetIds
  let d ← d.withImages l policy.policy
  d.withAutofs l policy.policy

/-- A draft with what follows from its configuration alone. -/
def settle (l : Launcher) (d : Draft) : Draft :=
  { d with
    plan := { d.plan with
      masterPropagateMount := true
      noNewPrivs := d.config.process.noNewPrivileges
      capabilities := d.config.process.capabilities.words }
    config := { d.config with signalPropagation := l.facts.groups.needPropagation } }

/-- A draft with the handles of its FUSE mounts. -/
def withFuse (l : Launcher) (policy : Policy) (d : Draft) : Action Draft := do
  let handles ← FuseMount.openAll l.fuseDevice d.config.fuseMounts policy.enableFusemount
    l.facts.isSuid d.config.fakeroot
  Action.ofExcept
    (({ d with config := { d.config with fuseMounts := handles.mounts } } : Draft).keepFiles
      handles.files)

/-- A draft with a socket pair is ready. -/
def finish (d : Draft) : Action ReadyLaunch := do
  let (first, second) ← Action.socketPair
  let a := FuseMount.recorded first
  let b := FuseMount.recorded second
  let d ← Action.ofExcept (d.keep a)
  let d ← Action.ofExcept (d.keep b)
  return {
    plan := { d.plan with nvCcliCaps := d.plan.nvCcliCaps || d.config.nvCcli }
    config := { d.config with unixSocketPair := some (a, b) }
    images := d.images
    held := d.held
    socketPair := (first, second) }

/-- The steps of a preparation after the policy was loaded. -/
def prepareWith (l : Launcher) (policy : AdminFiles) (config : LaunchConfig) :
    Action ReadyLaunch := do
  let d ← (Draft.start config).withDirectory
  if d.config.process.args.isEmpty then
    Action.fail (.invalid "container process arguments not found")
  let targetIds := Draft.asksForTarget d.config l.facts.caller
  let d ← d.withTarget l.facts.caller
  let d ← if d.config.instanceJoin.isSome then d.join l policy
    else l.draftFresh policy targetIds d
  let d ← l.withFuse policy.policy (l.settle d)
  finish d

def prepare (l : Launcher) (config : LaunchConfig) : Action ReadyLaunch :=
  Action.closingOnError do
    let h ← Action.observe id
    l.prepareWith (← Action.ofExcept (l.loadPolicy config h)) config

end Launcher
end ContainerLaunch
