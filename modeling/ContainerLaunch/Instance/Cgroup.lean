import ContainerLaunch.Host.Action
import ContainerLaunch.Instance.Proof
import ContainerLaunch.Instance.Record
/-!
# The process of an instance

A launch enters an instance by the directory of its process, which is opened once
and examined through the descriptor.  A process is put into the control group of
the instance by writing its number to a file of that group.  Which group it is
stands in the directory of the process.
-/

namespace ContainerLaunch

/-! ## The directory of the process -/

namespace Draft

def processPath (pid : Int32) : Path :=
  ⟨"/proc/" ++ Text.ofInt32 pid⟩

/-- The directory of the process of an instance, opened, with every proof given
that a privileged launch asks for. -/
def openProcess (caller : Caller) (r : InstanceRecord) (enforced : Bool) : Action OpenFile := do
  let directory ← Action.openFile .directory (processPath r.pid)
  let h ← Action.observe id
  if enforced then
    Action.ofExcept (InstanceProof.checkAll (.ofDirectory h directory.place)
      ⟨caller.uid, caller.gid, r.ppid⟩)
  return directory

end Draft

/-! ## Its control group -/

namespace Cgroup

/-- The root of the directories of processes. -/
def processRoot : Path := ⟨"/proc"⟩

def root : Path := ⟨"/sys/fs/cgroup"⟩

/-- The path of a group in the unified hierarchy. -/
def unifiedPath (content : String) : Option String :=
  (Text.lines content).findSome? (Text.stripStart "0::")

/-- The file in which a process finds its groups. -/
def groupFile (processRoot : Path) (pid : Int32) : Path :=
  (processRoot.join ⟨Text.ofInt32 pid⟩).join ⟨"cgroup"⟩

/-- A text without the slashes at its start. -/
def withoutSlashes (s : String) : String :=
  String.ofList (s.toList.dropWhile (· == '/'))

/-- The file of a group to which new members are written. -/
def membersFile (root : Path) (group : String) : Path :=
  (root.join ⟨withoutSlashes group⟩).join ⟨"cgroup.procs"⟩

/-- A process is put into the group of another one. -/
def join (processRoot root : Path) (pid : Int32) (member : Nat) : Action Unit := do
  let file := groupFile processRoot pid
  let content ← Action.readText file
  match unifiedPath content with
  | none =>
    Action.fail (.unavailable "cgroup v2" s!"no unified hierarchy entry in {file}")
  | some group => Action.writeFile (membersFile root group) (Text.octets (toString member))

end Cgroup

/-- The parent of the launcher is put into the control group of an instance that
has one. -/
def Draft.enterCgroup (r : InstanceRecord) : Action Unit := do
  if r.cgroup then
    let parent ← Action.observe fun h => h.process.parent
    Cgroup.join Cgroup.processRoot Cgroup.root r.pid parent.toInt.natAbs

end ContainerLaunch
