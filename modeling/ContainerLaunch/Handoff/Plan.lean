import ContainerLaunch.Capability.Classes
import ContainerLaunch.IdMap.Basic
import ContainerLaunch.Namespace.Basic
import ContainerLaunch.Notice
/-!
# The plan of a launch

What the next stage has to do: which namespaces to create and to join, which
maps, users and capabilities to set, and which descriptors to keep.  A plan is
checked as a whole before any of it is handed on.
-/

namespace ContainerLaunch

structure Plan where
  creationFlags : UInt32
  joinPaths : NamespaceKind → Option Path
  mountPropagation : UInt64
  joinOnly : Bool
  bringLoopback : Bool
  noNewPrivs : Bool
  uidMap : List IdMapLine
  gidMap : List IdMapLine
  allowSetgroups : Bool
  noSetgroups : Bool
  newuidmap : Option Path
  newgidmap : Option Path
  targetUid : UInt32
  targetGids : List UInt32
  capabilities : CapabilityWords
  isInstance : Bool
  workingDirectoryFd : Option Int32
  imageFd : Option Int32
  keptDescriptors : List Int32
  masterPropagateMount : Bool
  hybridWorkflow : Bool
  nvCcliCaps : Bool
  deriving Inhabited

namespace Plan

/-- The plan in which nothing is to be done. -/
def empty : Plan where
  creationFlags := 0
  joinPaths _ := none
  mountPropagation := 0
  joinOnly := false
  bringLoopback := false
  noNewPrivs := false
  uidMap := []
  gidMap := []
  allowSetgroups := false
  noSetgroups := false
  newuidmap := none
  newgidmap := none
  targetUid := 0
  targetGids := []
  capabilities := ⟨0, 0, 0, 0, 0⟩
  isInstance := false
  workingDirectoryFd := none
  imageFd := none
  keptDescriptors := []
  masterPropagateMount := false
  hybridWorkflow := false
  nvCcliCaps := false

def maxKept : Nat := 1024

def maxGids : Nat := 32

def maxPath : Nat := 4095

def tooManyKept : Error := .capacityExceeded "kept file descriptors" maxKept

/-- A plan that keeps one more descriptor. -/
def keep (p : Plan) (fd : Int32) : Except Error Plan :=
  if maxKept ≤ p.keptDescriptors.length then .error tooManyKept
  else .ok { p with keptDescriptors := p.keptDescriptors ++ [fd] }

/-- A plan with groups to run as; those that do not fit are left out. -/
def withTargetGids (p : Plan) (gids : List UInt32) : Plan :=
  { p with targetGids := gids.take maxGids }

/-- What the user is told about groups that do not fit. -/
def gidNotices (gids : List UInt32) : List Notice :=
  if maxGids < gids.length then [.tooManyGroups maxGids] else []

/-- The flag of a way of propagation. -/
def propagationFlag (name : String) : UInt64 :=
  if name = "shared" then 0x100000
  else if name = "slave" then 0x80000
  else if name = "private" then 0x40000
  else if name = "unbindable" then 0x20000
  else 0

/-- The flags of a way of propagation, which an `r` before its name extends to
all mounts below. -/
def propagationFlags (name : String) : UInt64 :=
  match Text.stripStart "r" name with
  | some base => propagationFlag base ||| 0x4000
  | none => propagationFlag name

/-- A plan that also joins a namespace. -/
def joining (p : Plan) (kind : NamespaceKind) (path : Path) : Plan :=
  { p with joinPaths := fun k => if k = kind then some path else p.joinPaths k }

/-- A plan that also joins those namespaces of a list that have a path; of
several of one kind the last one counts. -/
def withJoins (p : Plan) (s : NamespaceList) : Plan :=
  s.joins.foldl (fun p j => p.joining j.1 j.2) p

/-- The namespaces to join, in order of the kinds. -/
def joinList (p : Plan) : List (NamespaceKind × Path) :=
  NamespaceKind.all.filterMap fun k => (p.joinPaths k).map fun path => (k, path)

/-- A path that has to fit into a buffer with a zero octet after it. -/
def checkBuffer (field : String) (p : Path) : Except Error Unit :=
  if maxPath < p.size then .error (.capacityExceeded field maxPath)
  else if p.hasNul then .error (.invalid s!"{field} contains a NUL byte")
  else .ok ()

/-- The same for a path that need not be there. -/
def checkBuffer? (field : String) : Option Path → Except Error Unit
  | some p => checkBuffer field p
  | none => .ok ()

/-- The paths of the namespaces to join have to fit. -/
def checkJoins : List (NamespaceKind × Path) → Except Error Unit
  | [] => .ok ()
  | (kind, path) :: rest => do
    checkBuffer s!"{kind.name} namespace path" path
    checkJoins rest

/-- The texts of both maps, if the whole plan fits into the handoff region. -/
def checkedTexts (p : Plan) : Except Error (String × String) := do
  let uidMap ← IdMapLine.checkedText "uid map" p.uidMap
  let gidMap ← IdMapLine.checkedText "gid map" p.gidMap
  checkJoins p.joinList
  checkBuffer? "newuidmap path" p.newuidmap
  checkBuffer? "newgidmap path" p.newgidmap
  if maxGids < p.targetGids.length then .error (.capacityExceeded "target group IDs" maxGids)
  else if maxKept < p.keptDescriptors.length then .error tooManyKept
  else return (uidMap, gidMap)

/-- The kind of namespace with a name. -/
def kindNamed (name : String) : Option NamespaceKind :=
  NamespaceKind.all.find? fun k => k.name == name

/-- The namespaces to join as an object, by the names of the kinds. -/
def joinsCodec : Json.Codec (NamespaceKind → Option Path) where
  write paths := .object (NamespaceKind.all.filterMap fun k =>
    (paths k).map fun path => (k.name, Json.Codec.path.write path))
  read
    | .object fields => do
      let joins ← fields.mapM fun f => do return (← kindNamed f.1, ← Json.Codec.path.read f.2)
      some fun k => (joins.find? fun j => j.1 == k).map Prod.snd
    | _ => none

def schema : Json.Schema Plan where
  fields := [
    .plain "cloneFlags" .u32 creationFlags fun v p => { p with creationFlags := v },
    .plain "joinPaths" joinsCodec joinPaths fun v p => { p with joinPaths := v },
    .plain "mountPropagation" .u64 mountPropagation fun v p => { p with mountPropagation := v },
    .plain "joinOnly" .flag joinOnly fun v p => { p with joinOnly := v },
    .plain "bringLoopbackInterface" .flag bringLoopback fun v p => { p with bringLoopback := v },
    .plain "noNewPrivs" .flag noNewPrivs fun v p => { p with noNewPrivs := v },
    .plain "uidMap" (.list IdMapLine.schema.codec) uidMap fun v p => { p with uidMap := v },
    .plain "gidMap" (.list IdMapLine.schema.codec) gidMap fun v p => { p with gidMap := v },
    .plain "allowSetgroups" .flag allowSetgroups fun v p => { p with allowSetgroups := v },
    .plain "noSetgroups" .flag noSetgroups fun v p => { p with noSetgroups := v },
    .plain "newuidmapPath" Json.Codec.path.nullable newuidmap fun v p => { p with newuidmap := v },
    .plain "newgidmapPath" Json.Codec.path.nullable newgidmap fun v p => { p with newgidmap := v },
    .plain "targetUid" .u32 targetUid fun v p => { p with targetUid := v },
    .plain "targetGids" (.list .u32) targetGids fun v p => { p with targetGids := v },
    .plain "capabilities" CapabilityWords.schema.codec capabilities
      fun v p => { p with capabilities := v },
    .plain "isInstance" .flag isInstance fun v p => { p with isInstance := v },
    .plain "workingDirectoryFd" Json.Codec.i32.nullable workingDirectoryFd
      fun v p => { p with workingDirectoryFd := v },
    .plain "imageFd" Json.Codec.i32.nullable imageFd fun v p => { p with imageFd := v },
    .plain "keptFds" (.list .i32) keptDescriptors fun v p => { p with keptDescriptors := v },
    .plain "masterPropagateMount" .flag masterPropagateMount
      fun v p => { p with masterPropagateMount := v },
    .plain "hybridWorkflow" .flag hybridWorkflow fun v p => { p with hybridWorkflow := v },
    .plain "nvCcliCaps" .flag nvCcliCaps fun v p => { p with nvCcliCaps := v }]
  initial := empty

end Plan
end ContainerLaunch
