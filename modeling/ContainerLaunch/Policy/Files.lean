import ContainerLaunch.Capability.Grant
import ContainerLaunch.Host.State
import ContainerLaunch.Policy.Basic
/-!
# The administrator's files

Where the policy, the capability table and the subordinate ranges are kept, and
how they are loaded.  A privileged launch trusts a file only if the superuser
owns it.
-/

namespace ContainerLaunch

/-- Where the administrator's files are. -/
structure AdminPaths where
  config : Path
  capability : Path
  subuid : Path
  subgid : Path
  deriving DecidableEq, Repr, Inhabited

/-- What was loaded from the administrator's files. -/
structure AdminFiles where
  policy : Policy
  capabilities : CapabilityTable
  subuid : Path
  subgid : Path
  deriving Inhabited

namespace AdminPaths

def default : AdminPaths where
  config := ⟨"/etc/stagehand/stagehand.yaml"⟩
  capability := ⟨"/etc/stagehand/capability.json"⟩
  subuid := ⟨"/etc/subuid"⟩
  subgid := ⟨"/etc/subgid"⟩

/-- The files with another policy that the user asks for.  It counts only where
the installation is not privileged or the process is the superuser's. -/
def override (s : AdminPaths) (file : Option Path) (suidInstall : Bool) (euid : UInt32) :
    AdminPaths :=
  match file with
  | some file => if !suidInstall || euid == 0 then { s with config := file } else s
  | none => s

/-- A file that is not the superuser's cannot be trusted. -/
def requireRootOwned (h : Host) (p : Path) : Except Error Unit :=
  match h.stat p with
  | .error cause => .error (.untrustedPolicy p cause.message)
  | .ok inode =>
    if inode.uid = 0 then .ok ()
    else .error (.untrustedPolicy p s!"must be owned by root, owned by UID {inode.uid}")

/-- The files that a privileged launch reads must be the superuser's; the
capability table need not be there. -/
def ensureTrusted (h : Host) (s : AdminPaths) : Except Error Unit := do
  requireRootOwned h s.config
  if h.exists? s.capability then requireRootOwned h s.capability

def loadPolicy (h : Host) (p : Path) : Except Error Policy :=
  match h.readText p with
  | .error cause => .error (.atPath p cause)
  | .ok text =>
    match Policy.parse text with
    | .ok policy => .ok policy
    | .error e => .error (.invalid s!"unable to parse {p}: {e.message}")

/-- The capability table, empty if there is no file. -/
def loadCapabilities (h : Host) (p : Path) : Except Error CapabilityTable :=
  match h.readText p with
  | .ok text => CapabilityTable.parse text
  | .error cause => if cause.isNotFound then .ok .empty else .error (.atPath p cause)

def load (h : Host) (s : AdminPaths) (isSuid : Bool) : Except Error AdminFiles := do
  if isSuid then ensureTrusted h s
  let policy ← loadPolicy h s.config
  let capabilities ← loadCapabilities h s.capability
  return ⟨policy, capabilities, s.subuid, s.subgid⟩

end AdminPaths
end ContainerLaunch
