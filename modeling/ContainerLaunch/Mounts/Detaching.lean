import ContainerLaunch.Host.Removal
import ContainerLaunch.Host.Run
import ContainerLaunch.Launch.Configuration
/-!
# What a launch leaves on the host

An image that is mounted through FUSE needs a temporary directory for its mount,
and an image that is pulled first needs another one.  Once the container has
started, the mount is detached and its directory removed; after the container
ended, whatever is left is.

Whether the mount is still there is told by its directory, so that a task with
nothing left to do does nothing and succeeds.

A mount that may be busy is detached by a helper program that is given a bounded
time.
-/

namespace ContainerLaunch

/-! ## Lazy unmounting -/

/-- The helper that detaches FUSE mounts. -/
structure UnmountHelper where
  program : Path
  timeout : Duration
  deriving DecidableEq, Repr, Inhabited

namespace UnmountHelper

/-- The usual helper, with half a minute. -/
def usual : UnmountHelper := ⟨⟨"fusermount"⟩, .ofSeconds 30⟩

/-- What a run of the helper that came to its end means. -/
def verdict (f : UnmountHelper) (mountPoint : Path) (status : Status) (stderr : ByteArray) :
    Except Error Unit :=
  let said := Text.trim (Text.readLossy stderr)
  if status = .exited 0 then .ok ()
  else .error (.internal s!"{f.program} -z -u {mountPoint} exited with {status.text}: {said}")

/-- A mount is detached, even while it is busy. -/
def unmount (f : UnmountHelper) (mountPoint : Path) : Action Unit := do
  match ← Action.run f.program ["-z", "-u", mountPoint.text] f.timeout with
  | .ended status stderr => Action.ofExcept (f.verdict mountPoint status stderr)
  | .outOfTime => Action.fail (.timeout s!"lazy unmount of {mountPoint}" f.timeout)

end UnmountHelper

/-! ## Leftovers -/

/-- What a launch may have left on the host. -/
structure Leftovers where
  imageFuse : Bool
  image : Path
  mountDir : Option Path
  pullDir : Option Path
  deriving DecidableEq, Repr, Inhabited

abbrev Detacher := Path → Action Unit

namespace Detacher

/-- An unmounter that leaves the files as they are, records every call, and
answers by how many runs were recorded before. -/
def scripted (answer : Nat → Path → Except Error Unit) : Detacher := fun mountPoint => do
  let before ← Action.observe fun h => h.runs.length
  modify fun h => { h with runs := h.runs ++ [⟨[], [mountPoint.text]⟩] }
  Action.ofExcept (answer before mountPoint)

end Detacher

namespace Leftovers

/-- What a launch with a configuration may leave. -/
def ofConfig (c : LaunchConfig) : Leftovers where
  imageFuse := c.imageFuse
  image := c.image
  mountDir := c.deleteTempDir
  pullDir := c.deletePullTempDir

/-- The directory with the mount, if there is a mount to detach. -/
def mounted (l : Leftovers) (h : Host) : Option Path :=
  if l.imageFuse then l.mountDir.filter h.exists? else none

/-- The mount is detached and its directory removed. -/
def afterStart (unmount : Detacher) (l : Leftovers) : Action Unit := do
  match ← Action.observe l.mounted with
  | none => return ()
  | some directory =>
    unmount l.image
    Action.removeAll directory

/-- An action whose failure is put into words and does not end the work. -/
def attempt (what : String) (a : Action Unit) : Action (List String) := do
  match ← Action.outcome a with
  | .ok () => return []
  | .error e => return [s!"while {what}: {e.message}"]

/-- The mount is detached and its directory removed, each even if the other
fails; the failures. -/
def clearMount (unmount : Detacher) (l : Leftovers) : Action (List String) := do
  match ← Action.observe l.mounted with
  | none => return []
  | some directory =>
    let first ← attempt s!"unmounting fuse directory {l.image}" (unmount l.image)
    let second ← attempt s!"removing temp directory {directory}" (Action.removeAll directory)
    return first ++ second

/-- The directory of the pulled image is removed; the failures. -/
def clearPull (l : Leftovers) : Action (List String) := do
  match l.pullDir with
  | none => return []
  | some directory =>
    attempt s!"removing pull directory {directory}" (Action.removeAll directory)

/-- Everything that is left is removed, as far as possible; all failures are told
and reported together. -/
def cleanup (unmount : Detacher) (l : Leftovers) : Action Unit := do
  let first ← l.clearMount unmount
  let second ← l.clearPull
  let failures := first ++ second
  if failures.isEmpty then return ()
  else
    Action.notifyAll (failures.map .cleanupFailure)
    Action.fail (.cleanup failures)

end Leftovers

/-- A task of the host side. -/
inductive HostTask where
  | afterStart
  | cleanup
  deriving DecidableEq, Repr, Inhabited

namespace HostTask

def perform (unmount : Detacher) (l : Leftovers) : HostTask → Action Unit
  | .afterStart => l.afterStart unmount
  | .cleanup => l.cleanup unmount

end HostTask
end ContainerLaunch
