import ContainerLaunch.IdMap.Fakeroot
import ContainerLaunch.Launch.Draft
import ContainerLaunch.Mounts.Autofs
import ContainerLaunch.Namespace.Rules
/-!
# New containers

The namespaces, capabilities, number maps and security options of a container
that is started, and the descriptors of what it needs from below autofs mounts.
-/

namespace ContainerLaunch.Draft

/-- A draft with the namespaces that the policy leaves. -/
def withNamespaces (l : Launcher) (policy : Policy) (d : Draft) : Action Draft := do
  let ruling :=
    d.config.namespaces.underPolicy policy l.facts.suidInstall d.config.hostname.isSome
  Action.notifyAll ruling.notices
  Action.ofExcept ruling.verdict
  let h ← Action.observe id
  let _ ← Action.ofExcept (ruling.namespaces.authorizeNetwork h policy l.facts.caller)
  return { d with config := { d.config with namespaces := ruling.namespaces } }

/-- The helpers that write number maps, if helpers do. -/
def helpersOf : MapWriter → Option Path × Option Path
  | .setuid => (none, none)
  | .helpers newuidmap newgidmap => (some newuidmap, some newgidmap)

/-- The number maps of a launch as a fake superuser. -/
def subordinateMaps (l : Launcher) (policy : AdminFiles) (h : Host) :
    Except Error SubordinateMaps := do
  let mode ← Helper.mapWriter h l.facts.isSuid l.searchPath
  let subuid ← SubIdRange.load h policy.subuid
  let subgid ← SubIdRange.load h policy.subgid
  let caller := l.facts.caller
  SubordinateMaps.build caller.uid caller.gid caller.username subuid subgid mode

/-- A draft for a fake superuser with given maps: in a new user namespace, with
every capability there. -/
def asFakeroot (d : Draft) (maps : SubordinateMaps) : Draft :=
  let config := { d.config with
    uidMappings := maps.uidMap
    gidMappings := maps.gidMap
    process := { d.config.process with capabilities := .uniform .full }
    namespaces := d.config.namespaces.add (.create .user) }
  let plan := { d.plan with
    newuidmap := (helpersOf maps.mode).1.or d.plan.newuidmap
    newgidmap := (helpersOf maps.mode).2.or d.plan.newgidmap
    hybridWorkflow := true
    allowSetgroups := true
    noSetgroups := config.noSetgroups
    targetUid := 0
    targetGids := [0] }
  { d with config := config, plan := plan }

/-- A draft for a fake superuser, if one is asked for. -/
def withFakeroot (l : Launcher) (policy : AdminFiles) (d : Draft) : Action Draft := do
  if !d.config.fakeroot then return d
  if !policy.policy.allowUserNs then
    Action.fail (.disallowed "user namespace, required by --fakeroot")
  let h ← Action.observe id
  return d.asFakeroot (← Action.ofExcept (subordinateMaps l policy h))

/-- The configuration with the caller's own numbers mapped onto themselves, if it
has a user namespace and no map. -/
def withOwnMaps (c : LaunchConfig) (caller : Caller) : LaunchConfig :=
  if c.namespaces.has .user && c.uidMappings.isEmpty then
    { c with uidMappings := [.single caller.uid], gidMappings := [.single caller.gid] }
  else c

/-- A draft whose plan has the namespaces and maps of the configuration. -/
def withNamespacePlan (d : Draft) (policy : Policy) (caller : Caller) : Draft :=
  let plan := { d.plan with
    mountPropagation := Plan.propagationFlags policy.propagation
    bringLoopback := true
    isInstance := d.config.instanceStart
    creationFlags := d.config.namespaces.creationFlags }
  let plan := plan.withJoins d.config.namespaces
  let config := withOwnMaps d.config caller
  { d with
    config := config
    plan := { plan with uidMap := config.uidMappings, gidMap := config.gidMappings } }

def fresh (l : Launcher) (policy : AdminFiles) (targetIds : Bool) (d : Draft) :
    Action Draft := do
  let d ← d.withNamespaces l policy.policy
  let d ← d.withCapabilities policy l.facts.caller l.facts.isSuid targetIds
  let d ← d.withFakeroot l policy
  (d.withNamespacePlan policy.policy l.facts.caller).withSecurity

/-- The source of a bind mount of the policy, if it has one. -/
def bindSource (entry : String) : Option Path :=
  match Text.pieces ':' entry with
  | source :: _ => if source = "" then none else some ⟨source⟩
  | [] => none

/-- What the container needs from the host's directories, in the order in which
it is looked at for autofs. -/
def autofsCandidates (policy : Policy) (c : LaunchConfig) : List Path :=
  (if policy.userBindControl then
    (c.bindPaths.filter fun b => !b.namesImage).map BindMount.source else []) ++
  (if c.contain then c.workdir.toList
    else policy.bindPath.filterMap bindSource ++ c.homeSource.toList ++ c.cwd.toList)

/-- A draft that keeps open what the container needs from below autofs mounts; a
table of mounts that cannot be read is as good as an empty one. -/
def withAutofs (l : Launcher) (policy : Policy) (d : Draft) : Action Draft := do
  let h ← Action.observe id
  match Autofs.points h l.facts.mountTable with
  | .error _ => return d
  | .ok points =>
    let pinned ← Autofs.pinCandidates points (autofsCandidates policy d.config)
    Action.ofExcept (d.keepFiles pinned)

end ContainerLaunch.Draft
