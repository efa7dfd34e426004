import ContainerLaunch.CommandLine.Session
/-!
# Snapshots of the host

What the program has to know of the machine before a command is run, and how the
machine's own tables are read.  Which files matter depends on what other files
say, so a snapshot grows in rounds: each round asks for the paths that what is
known so far makes necessary.

Nothing is known about the owner of a file, so every file counts as owned by
nobody, and whatever has to be trusted is refused.
-/

namespace ContainerLaunch

namespace Account

/-- The user on a line of the user table. -/
def ofLine (line : String) : Option Account :=
  match Text.pieces ':' line with
  | [name, _, uid, gid, gecos, home, shell] => do
    let uid ← Text.u32? uid
    let gid ← Text.u32? gid
    some ⟨name, uid, gid, gecos, home, shell⟩
  | _ => none

end Account

namespace UnixGroup

/-- The group on a line of the group table. -/
def ofLine (line : String) : Option UnixGroup :=
  match Text.pieces ':' line with
  | name :: _ :: gid :: _ => (Text.u32? gid).map fun gid => ⟨gid, name⟩
  | _ => none

end UnixGroup

namespace Snapshot

def directory (users groups : String) : Directory :=
  ⟨(Text.lines users).filterMap Account.ofLine, (Text.lines groups).filterMap UnixGroup.ofLine⟩

/-- The words after a key in the status of a process. -/
def statusWords (status key : String) : List String :=
  ((Text.lines status).findSome? (Text.stripStart key)).elim [] Text.words

/-- The numbers of users and groups in the status of a process. -/
def credentials (status : String) : Credentials :=
  let numbers (key : String) : List UInt32 := (statusWords status key).filterMap Text.u32?
  let users := numbers "Uid:"
  ⟨users.head?.getD 65534, (numbers "Gid:").head?.getD 65534, (users[1]?).getD 65534,
    numbers "Groups:"⟩

/-- The process that a status and a line of statistics describe.  The numbers of
the line start after the name of the program, which stands in parentheses. -/
def process (status statistics : String) (directory : Option Place) (searchPath : Option String) :
    Process :=
  let tail := ((Text.pieces ')' statistics).getLast?.elim [] Text.words).map Text.i32?
  let number (i : Nat) : Int32 := ((tail[i]?).bind id).getD 0
  { credentials := credentials status
    parent := number 1
    group := number 2
    terminals := [if 0 < number 5 then some (number 5) else none]
    directory := directory
    searchPath := searchPath }

/-- A host of which no file is known yet. -/
def start (kernel name : String) (users : Directory) (process : Process) : Host where
  tree := ⟨[]⟩
  restrictions := ⟨[], [], []⟩
  mounts := []
  users := users
  kernel := Text.trim kernel
  name := Text.trim name
  process := process
  descriptors := []
  runs := []
  journal := []

/-- What was found at a path. -/
inductive Found where
  | file (content : ByteArray)
  | directory
  /-- Nothing that can be read. -/
  | nothing

/-- A host of which one more path is known. -/
def add (h : Host) (p : Path) (found : Found) : Host :=
  let place := Place.ofPath p
  let put (node : Node) : Host :=
    { h with tree := (h.tree.makeParents [] place).put place ⟨node, 65534, 65534, false⟩ }
  match found with
  | .file content => put (.file content)
  | .directory => put .directory
  | .nothing => h

def configOf : Command → Option Path
  | .prepare o => some o.config
  | .afterStart o | .cleanup o => some o.config
  | .version | .help => none

/-- The files of the administrator that a preparation reads. -/
def policyFiles (o : PrepareOptions) (c : LaunchConfig) (h : Host) : List Path :=
  let euid := h.process.credentials.euid
  let s := (Session.sourcesFor o).override c.configurationFile true euid
  [s.config, s.capability, s.subuid, s.subgid]

/-- The files of the kernel that a preparation reads. -/
def kernelFiles : List Path :=
  [⟨"/proc/filesystems"⟩, ⟨"/proc/self/uid_map"⟩, ⟨"/proc/self/mountinfo"⟩]

/-- The images and directories that a configuration names. -/
def configFiles (c : LaunchConfig) : List Path :=
  c.image :: c.overlayImages.map (fun s => (OverlayRequest.parse s).path) ++
    c.bindPaths.map BindMount.source ++ c.namespaces.joins.map Prod.snd ++
    c.deleteTempDir.toList ++ c.deletePullTempDir.toList

/-- The files about the process of an instance. -/
def processFiles (r : InstanceRecord) : List Path :=
  let about (pid : Int32) : List Path :=
    ["", "/root", "/task"].map fun s => ⟨(Draft.processPath pid).text ++ s⟩
  about r.pid ++ about r.ppid ++
    ["uid_map", "status", "comm", "cgroup"].map fun s => (Draft.processPath r.pid).join ⟨s⟩

/-- The file to which the members of the group of an instance are written. -/
def groupFiles (r : InstanceRecord) (h : Host) : List Path :=
  match (h.readText (Cgroup.groupFile Cgroup.processRoot r.pid)).toOption.bind
      Cgroup.unifiedPath with
  | some group => [Cgroup.membersFile Cgroup.root group]
  | none => []

/-- The files about the instance that a configuration joins. -/
def instanceFiles (c : LaunchConfig) (h : Host) : List Path :=
  if c.instanceJoin.isNone then []
  else
    let path := Draft.recordPath h (.ofCredentials h.process.credentials h.users) c
    path :: match InstanceRecord.load h path with
      | .ok record => processFiles record ++ groupFiles record h
      | .error _ => []

/-- The paths that matter for a command, as far as can be told. -/
def wanted (command : Command) (h : Host) : List Path :=
  match configOf command with
  | none => []
  | some path =>
    path :: match LaunchConfig.load h path with
      | .error _ => []
      | .ok c =>
        configFiles c ++
          match command with
          | .prepare o => policyFiles o c h ++ kernelFiles ++ instanceFiles c h
          | _ => []

/-- How often a file can make further ones necessary: the configuration names the
record of an instance, the record a process, and the process a group. -/
def rounds : Nat := 4

/-- The region that the native stage left in a file. -/
def inheritedRegion (content : ByteArray) : Inherited :=
  .region content.size
    ⟨Octets.octet content 49380 != 0, Int32.ofInt (Octets.signed content 0 4)⟩

/-- The directories that a command may remove and that are gone. -/
def removed (command : Command) (before after : Host) : List Path :=
  match (configOf command).map (LaunchConfig.load before) with
  | some (.ok c) =>
    (c.deleteTempDir.toList ++ c.deletePullTempDir.toList).filter fun p =>
      before.existsUnfollowed p && !after.existsUnfollowed p
  | _ => []

/-- The files that have another content than before. -/
def written (before after : Host) : List (Path × ByteArray) :=
  after.tree.entries.filterMap fun e =>
    match e.2.node with
    | .file content =>
      if (before.tree.find? e.1).map Inode.node == some (.file content) then none
      else some (e.1.path, content)
    | _ => none

end Snapshot
end ContainerLaunch
