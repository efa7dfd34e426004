import ContainerLaunch.IdMap.Basic
/-!
# The maps of a fake superuser

For a launch as a fake superuser the map has the caller's own number at 0 and,
from 1 on, the range that is set aside for it.  A privileged launcher writes the
map itself; any other one has two helper programs do it, which the superuser must
own.
-/

namespace ContainerLaunch

/-- Who writes the maps of a user namespace. -/
inductive MapWriter where
  | setuid
  | helpers (newuidmap newgidmap : Path)
  deriving DecidableEq, Repr, Inhabited

/-- The maps of a launch as a fake superuser. -/
structure SubordinateMaps where
  uidMap : List IdMapLine
  gidMap : List IdMapLine
  mode : MapWriter
  deriving DecidableEq, Repr, Inhabited

namespace SubordinateMaps

/-- A map with a number of the caller at 0 and a range from 1 on. -/
def mapOf (id : UInt32) (r : SubIdRange) : List IdMapLine :=
  [⟨0, id, 1⟩, ⟨1, r.start, r.count⟩]

/-- The range that is set aside for a user, which has to be there. -/
def neededRange (kind : String) (rs : List SubIdRange) (username : String) (uid : UInt32) :
    Except Error SubIdRange :=
  match SubIdRange.first? rs username uid with
  | some r => .ok r
  | none => .error (.disallowed
      s!"fakeroot: no subordinate {kind} range configured for {username} ({uid})")

/-- The maps of a caller.  Both ranges are selected by the user. -/
def build (uid gid : UInt32) (username : String) (subuid subgid : List SubIdRange)
    (mode : MapWriter) : Except Error SubordinateMaps := do
  let users ← neededRange "UID" subuid username uid
  let groups ← neededRange "GID" subgid username uid
  return ⟨mapOf uid users, mapOf gid groups, mode⟩

end SubordinateMaps

namespace Helper

/-- Where programs are searched if nothing else is said. -/
def defaultSearchPath : String :=
  "/usr/local/sbin:/usr/local/bin:/usr/sbin:/usr/bin:/sbin:/bin"

/-- The room for a path in the handoff region. -/
def maxPath : Nat := 4096

def directories (searchPath : Option String) : List String :=
  let path := (searchPath.filter fun p => p != "").getD defaultSearchPath
  (Text.pieces ':' path).filter fun d => d != ""

/-- Whether a path names a file that can be executed. -/
def isExecutable (h : Host) (p : Path) : Bool :=
  match h.stat p with
  | .ok inode => inode.isFile && inode.executable
  | .error _ => false

/-- The first executable file of a name along a search path. -/
def onSearchPath (h : Host) (name : String) (searchPath : Option String) : Option Path :=
  ((directories searchPath).map fun d => Path.join ⟨d⟩ ⟨name⟩).find? (isExecutable h)

/-- A helper that is not on the search path. -/
def missing (name : String) (searchPath : Option String) : Error :=
  let path := searchPath.getD defaultSearchPath
  .unavailable name (s!"not found in PATH ({path}), " ++
    "required with fakeroot and unprivileged installation")

/-- A helper that is not the superuser's. -/
def foreign (name : String) (p : Path) : Error :=
  .unavailable name (s!"{p} must be owned by the root user " ++
    "to setup fakeroot ID mappings in an unprivileged installation")

/-- The helper of a name along a search path, which the superuser must own. -/
def find (h : Host) (name : String) (searchPath : Option String) : Except Error Path :=
  match onSearchPath h name searchPath with
  | none => .error (missing name searchPath)
  | some p =>
    match h.stat p with
    | .error cause => .error (.atPath p cause)
    | .ok inode =>
      if inode.uid != 0 then .error (foreign name p)
      else if maxPath - 1 ≤ p.size then .error (.capacityExceeded s!"{name} path" (maxPath - 1))
      else .ok p

/-- Who writes the maps: the launcher if it is privileged, else the helpers. -/
def mapWriter (h : Host) (isSuid : Bool) (searchPath : Option String) :
    Except Error MapWriter :=
  if isSuid then .ok .setuid
  else do
    let newuidmap ← find h "newuidmap" searchPath
    let newgidmap ← find h "newgidmap" searchPath
    return .helpers newuidmap newgidmap

end Helper
end ContainerLaunch
