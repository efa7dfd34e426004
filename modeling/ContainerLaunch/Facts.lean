import ContainerLaunch.Host.State
/-!
# What is known about the host

The facts on which a launch depends are gathered once, at its start: how it is
privileged, who calls, what the kernel can do and which terminal is in use.
-/

namespace ContainerLaunch

/-- What the kernel can do. -/
structure Features where
  /-- The release of the kernel, if known. -/
  kernel : Option String
  fileSystems : List String
  inUserNamespace : Bool
  rootlessOverlay : Bool
  deriving DecidableEq, Repr, Inhabited

namespace Features

def knowsOverlay (f : Features) : Bool :=
  f.fileSystems.contains "overlay"

/-- The types of file systems in the kernel's list: the last word of each line. -/
def parseFileSystems (content : String) : List String :=
  (Text.lines content).filterMap fun line => (Text.words line).getLast?

/-- Whether a map of user numbers is the one outside any user namespace. -/
def mapsAllToSelf (content : String) : Bool :=
  Text.words content == ["0", "0", "4294967295"]

/-- The pieces of a release between dots and dashes. -/
def releasePieces (release : String) : List String :=
  (Text.pieces '.' release).flatMap (Text.pieces '-')

/-- The major and minor number of a release. -/
def parseRelease (release : String) : Option (UInt32 × UInt32) :=
  match releasePieces release with
  | major :: minor :: _ => do
    let major ← Text.u32? major
    let minor ← Text.u32? (String.ofList (minor.toList.takeWhile Char.isDigit))
    some (major, minor)
  | _ => none

/-- Whether a kernel of a version mounts overlays in a user namespace: from 5.11
on. -/
def mountsRootlessOverlay (version : UInt32 × UInt32) : Bool :=
  5 < version.1 || (version.1 == 5 && 11 ≤ version.2)

/-- What the kernel of a host can do. -/
def ofHost (h : Host) : Features where
  kernel := some h.kernel
  fileSystems := (h.readText ⟨"/proc/filesystems"⟩).toOption.elim [] parseFileSystems
  inUserNamespace :=
    (h.readText ⟨"/proc/self/uid_map"⟩).toOption.elim false fun content => !mapsAllToSelf content
  rootlessOverlay := ((parseRelease h.kernel).map mountsRootlessOverlay).getD false

end Features

/-- The process groups that decide who passes signals on. -/
structure TerminalGroups where
  /-- The foreground process group of the terminal, if there is one. -/
  terminal : Option Int32
  own : Int32
  deriving DecidableEq, Repr, Inhabited

namespace TerminalGroups

/-- The process groups of a host's process; the first terminal counts. -/
def ofHost (h : Host) : TerminalGroups where
  terminal := (h.process.terminals.filterMap id).find? fun group => group != 0
  own := h.process.group

/-- Whether signals have to be passed on to the container: the launcher is not
in the foreground of a terminal. -/
def needPropagation (g : TerminalGroups) : Bool :=
  match g.terminal with
  | none => true
  | some group => group != g.own

end TerminalGroups

/-- What is known about the host of a launch. -/
structure Facts where
  isSuid : Bool
  suidInstall : Bool
  caller : Caller
  features : Features
  groups : TerminalGroups
  mountTable : Path
  deriving DecidableEq, Inhabited

namespace Facts

def ofHost (h : Host) (isSuid : Bool) : Facts where
  isSuid := isSuid
  suidInstall := true
  caller := .ofCredentials h.process.credentials h.users
  features := .ofHost h
  groups := .ofHost h
  mountTable := ⟨"/proc/self/mountinfo"⟩

def summary (f : Facts) : String :=
  let kernel := f.features.kernel.getD "unknown"
  s!"uid={f.caller.uid} suid={f.isSuid} suid_install={f.suidInstall} kernel={kernel} " ++
    s!"userns={f.features.inUserNamespace} overlay={f.features.knowsOverlay}"

end Facts
end ContainerLaunch
