import ContainerLaunch.Instance.Cgroup
import ContainerLaunch.Launch.Draft
/-!
# Joining an instance

A launch that enters a running instance takes its namespaces and, as far as the
request does not say otherwise, its confinement from the record of the instance.
Nothing of the process is looked at before it is clear that the launch is
privileged exactly if it has to be.
-/

namespace ContainerLaunch.Draft

/-- Where the record of the instance is. -/
def recordPath (h : Host) (caller : Caller) (c : LaunchConfig) : Path :=
  match c.instanceFile with
  | some path => path
  | none => InstanceRecord.location ⟨caller.home⟩ h.name (c.instanceJoin.getD "")

/-- The configuration that an instance was started with. -/
def instanceConfig (r : InstanceRecord) : Except Error LaunchConfig :=
  match LaunchConfig.schema.read r.config with
  | some config => .ok config
  | none => .error (.instanceIntegrity "unreadable engine configuration: not a configuration")

/-- A draft that enters the namespaces of a process through its directory. -/
def enterProcess (d : Draft) (directory : OpenFile) (namespaces : NamespaceList) :
    Except Error Draft := do
  let d ← d.keepFile directory
  let namespaces := namespaces.relativeToProcess
  let plan := { d.plan with
    workingDirectoryFd := some (descriptor directory)
    imageFd := some (descriptor directory)
    joinOnly := true }
  return { d with
    plan := plan.withJoins namespaces
    config := { d.config with namespaces := namespaces } }

/-- A draft with the capabilities of an instance in place of those asked for. -/
def restoreCapabilities (d : Draft) (from_ : LaunchConfig) : Draft :=
  { d with
    config := { d.config with
      process := { d.config.process with capabilities := from_.process.capabilities } } }

/-- A draft with the user and home directory of an instance. -/
def restoreUser (d : Draft) (from_ : LaunchConfig) : Draft :=
  let plan :=
    if from_.fakeroot then { d.plan with targetUid := 0, targetGids := [0] } else d.plan
  let env := match from_.homeDest with
    | some home => d.config.process.env.insert "HOME" home.text
    | none => d.config.process.env
  { d with
    plan := plan
    config := { d.config with process := { d.config.process with env := env } } }

/-- A draft with the confinement of an instance, but for what the request says. -/
def restoreConfinement (d : Draft) (from_ : LaunchConfig) : Draft :=
  let kept {α : Type} (key : String) (mine theirs : α) : α :=
    if (d.config.securityOption key).isSome then mine else theirs
  let process := d.config.process
  { d with
    config := { d.config with
      process := { process with
        selinuxLabel := kept "selinux" process.selinuxLabel from_.process.selinuxLabel
        apparmorProfile := kept "apparmor" process.apparmorProfile from_.process.apparmorProfile
        seccomp := kept "seccomp" process.seccomp from_.process.seccomp } } }

/-- A draft that may not gain privileges, unless the superuser joins an instance
that may. -/
def restorePrivileges (d : Draft) (caller : Caller) (from_ : LaunchConfig) : Draft :=
  let noNewPrivileges := if caller.isSuperuser then from_.process.noNewPrivileges else true
  { d with
    config := { d.config with
      process := { d.config.process with noNewPrivileges := noNewPrivileges } } }

def join (l : Launcher) (policy : AdminFiles) (d : Draft) : Action Draft := do
  let caller := l.facts.caller
  let h ← Action.observe id
  let record ← Action.ofExcept (InstanceRecord.load h (recordPath h caller d.config))
  let enforced ← Action.ofExcept (record.checkJoin caller.uid l.facts.isSuid)
  let directory ← openProcess caller record enforced
  let from_ ← Action.ofExcept (instanceConfig record)
  let d ← Action.ofExcept (d.enterProcess directory from_.namespaces)
  let d ← (d.restoreCapabilities from_).withCapabilities policy caller enforced false
  let d ← (d.restoreUser from_).withSecurity
  let d ← (d.restoreConfinement from_).withUserInfo caller false
  enterCgroup record
  return d.restorePrivileges caller from_

end ContainerLaunch.Draft
