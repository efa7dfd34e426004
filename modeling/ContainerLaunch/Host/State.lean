import ContainerLaunch.Caller
import ContainerLaunch.Host.Walk
import ContainerLaunch.Notice
import ContainerLaunch.Text.Utf8
/-!
# The host

What the machine and the process look like from inside: the tree of files and
the rules that restrict opening them, the user database, the numbers of the
process, its descriptors, and the record of what was run and told.  Looking at
the host never changes it.
-/

namespace ContainerLaunch

/-- What a descriptor refers to. -/
inductive Target where
  | file (place : Place)
  | socket
  deriving DecidableEq, Repr, Inhabited

structure Descriptor where
  number : Nat
  target : Target
  closeOnExec : Bool
  deriving DecidableEq, Repr, Inhabited

/-- A run of a program. -/
structure Run where
  program : Place
  arguments : List String
  deriving DecidableEq, Repr, Inhabited

/-- Restrictions on opening files, by the places at and below which they hold. -/
structure Restrictions where
  /-- Nothing can be opened. -/
  denied : List Place
  /-- Writing fails because the file system is read-only. -/
  readOnly : List Place
  /-- Writing is denied. -/
  noWrite : List Place
  deriving DecidableEq, Repr, Inhabited

/-- What the kernel says about a file system. -/
structure MountedAt where
  /-- The place at and below which it is mounted. -/
  place : Place
  /-- Its magic number, or the error of asking for it. -/
  magic : Except Errno Int
  deriving Inhabited

/-- The process that runs. -/
structure Process where
  credentials : Credentials
  group : Int32
  parent : Int32
  /-- The foreground process group of the terminal on each of the first three
  descriptors, where there is one. -/
  terminals : List (Option Int32)
  /-- Its current directory, unless that is gone. -/
  directory : Option Place
  searchPath : Option String
  deriving DecidableEq, Repr, Inhabited

structure Host where
  tree : Tree
  restrictions : Restrictions
  mounts : List MountedAt
  users : Directory
  kernel : String
  name : String
  process : Process
  descriptors : List Descriptor
  /-- The runs of programs so far. -/
  runs : List Run
  /-- What the user was told so far. -/
  journal : List Notice
  deriving Inhabited

/-- How a file is opened. -/
inductive Access where
  | read
  | readWrite
  /-- For reading, and only if it is a directory. -/
  | directory
  deriving DecidableEq, Repr

namespace Restrictions

/-- Why a place may not be opened, if it may not. -/
def refusal (r : Restrictions) (writing : Bool) (p : Place) : Option Errno :=
  if r.denied.any p.isUnder then some .accessDenied
  else if writing && r.readOnly.any p.isUnder then some .readOnly
  else if writing && r.noWrite.any p.isUnder then some .accessDenied
  else none

end Restrictions

namespace Host

def descriptor? (h : Host) (number : Nat) : Option Descriptor :=
  h.descriptors.find? fun d => d.number == number

/-- The directory in which the process finds its descriptors. -/
def descriptorPlace : Place := ["proc", "self", "fd"]

/-- The path under which the process finds a descriptor. -/
def pathOfDescriptor (number : Nat) : Path :=
  ⟨"/proc/self/fd/" ++ toString number⟩

/-- The link that leads to an open descriptor. -/
def descriptorLink (h : Host) (p : Place) : Option Inode :=
  match p with
  | ["proc", "self", "fd", name] =>
    match (Text.natOfDigits name.toList).bind h.descriptor? with
    | some ⟨_, .file place, _⟩ => some ⟨.link place.path, 0, 0, true⟩
    | _ => none
  | p => if p.isPrefixOf descriptorPlace then some .rootDirectory else none

/-- What there is at a place: the files, and the descriptors of the process. -/
def look (h : Host) (p : Place) : Option Inode :=
  (h.tree.find? p).or (h.descriptorLink p)

def resolve (h : Host) (follow : Bool) (p : Path) : Except IoError Place :=
  Walk.resolve h.look h.process.directory follow p

/-- The place and the inode that a path names, with links followed. -/
def find (h : Host) (p : Path) : Except IoError (Place × Inode) := do
  let place ← h.resolve true p
  match h.look place with
  | some inode => .ok (place, inode)
  | none => .error (.system .noEntry)

/-- The inode that a path names, with links followed. -/
def stat (h : Host) (p : Path) : Except IoError Inode :=
  (h.find p).map Prod.snd

/-- Whether a path names something, with links followed. -/
def exists? (h : Host) (p : Path) : Bool :=
  (h.find p).isOk

/-- Whether a path names something, be it a link that leads nowhere. -/
def existsUnfollowed (h : Host) (p : Path) : Bool :=
  match h.resolve false p with
  | .ok place => (h.look place).isSome
  | .error _ => false

/-- The path of the place that a path names. -/
def canonical (h : Host) (p : Path) : Except IoError Path :=
  (h.find p).map fun found => found.1.path

/-- The target of the link that a path names. -/
def linkTarget (h : Host) (p : Path) : Except IoError Path := do
  let place ← h.resolve false p
  match (h.look place).map Inode.node with
  | some (.link target) => .ok target
  | some .sealedLink => .error (.system .accessDenied)
  | some _ => .error (.system .invalidArgument)
  | none => .error (.system .noEntry)

def opening (h : Host) (access : Access) (p : Path) : Except IoError (Place × Inode) := do
  let place ← h.resolve true p
  match h.restrictions.refusal (access == .readWrite) place with
  | some errno => .error (.system errno)
  | none =>
    match h.look place with
    | none => .error (.system .noEntry)
    | some inode =>
      if inode.isDirectory && access == .readWrite then .error (.system .isDirectory)
      else if !inode.isDirectory && access == .directory then .error (.system .notDirectory)
      else .ok (place, inode)

/-- The octets of the file that a path names. -/
def readBytes (h : Host) (p : Path) : Except IoError ByteArray := do
  let (_, inode) ← h.opening .read p
  if inode.isDirectory then .error (.system .isDirectory) else .ok inode.content

def readText (h : Host) (p : Path) : Except IoError String := do
  let bytes ← h.readBytes p
  match Text.readText bytes with
  | some text => .ok text
  | none => .error .notText

def mayWrite (h : Host) (p : Path) : Bool :=
  match h.find p with
  | .ok (place, _) => (h.restrictions.refusal true place).isNone
  | .error _ => false

/-- The magic number of the usual file system. -/
def usualMagic : Int := 0xEF53

/-- The magic number of the file system of the place that a path names. -/
def fileSystem (h : Host) (p : Path) : Except Errno Int :=
  if p.hasNul then .error .invalidArgument
  else
    match h.find p with
    | .ok (place, _) =>
      match h.mounts.find? fun m => place.isUnder m.place with
      | some m => m.magic
      | none => .ok usualMagic
    | .error (.system errno) => .error errno
    | .error _ => .error .invalidArgument

def currentDirectory (h : Host) : Option Path :=
  h.process.directory.map Place.path

/-- The host as seen from another current directory. -/
def within (h : Host) (directory : Option Place) : Host :=
  { h with process := { h.process with directory := directory } }

end Host
end ContainerLaunch
