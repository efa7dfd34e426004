import ContainerLaunch.Host.Action
import ContainerLaunch.Json.Codec
/-!
# FUSE mounts

A FUSE mount that a launch asks for gets its own handle of the FUSE device.  The
handles are opened here and their numbers recorded with the mounts.
-/

namespace ContainerLaunch

/-- A FUSE mount that a launch asks for. -/
structure FuseMount where
  mountPoint : Path
  fromContainer : Bool
  fd : Option Int32
  deriving DecidableEq, Repr, Inhabited

/-- The handles of the FUSE device. -/
structure FuseDescriptors where
  mounts : List FuseMount
  /-- The handles, one for each mount. -/
  files : List OpenFile
  /-- Whether the handles have to be sent to the launcher's host side. -/
  send : Bool
  deriving Inhabited

namespace FuseMount

def schema : Json.Schema FuseMount where
  fields := [
    .needed "mountPoint" .path mountPoint fun v m => { m with mountPoint := v },
    .plain "fromContainer" .flag fromContainer fun v m => { m with fromContainer := v },
    .optional "fd" .i32 fd fun v m => { m with fd := v }]
  initial := ⟨⟨""⟩, false, none⟩

def device : Path := ⟨"/dev/fuse"⟩

/-- A descriptor number as it is recorded. -/
def recorded (number : Nat) : Int32 := Int32.ofNat number

/-- A handle of the device is opened for each of several mounts, in order. -/
def openEach (device : Path) : List FuseMount → Action (List (FuseMount × OpenFile))
  | [] => return []
  | mount :: rest => do
    let file ← Action.openFile .readWrite device
    let more ← openEach device rest
    return ({ mount with fd := some (recorded file.number) }, file) :: more

/-- The handles of several mounts are opened, if the policy enables such mounts.
Unless the launch is privileged and not that of a fake superuser, handles of
mounts served from the host are sent to the host side. -/
def openAll (device : Path) (mounts : List FuseMount) (enabled isSuid fakeroot : Bool) :
    Action FuseDescriptors := do
  if mounts.isEmpty then return ⟨[], [], false⟩
  if !enabled then Action.fail (.disabled "fusemount" "enable-fusemount: no")
  let opened ← openEach device mounts
  return {
    mounts := opened.map Prod.fst
    files := opened.map Prod.snd
    send := (!isSuid || fakeroot) && mounts.any fun m => !m.fromContainer }

end FuseMount
end ContainerLaunch
