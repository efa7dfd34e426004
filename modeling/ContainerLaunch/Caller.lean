import ContainerLaunch.Json.Codec
import ContainerLaunch.Text.Numeral
/-!
# The caller

Who asks for the launch: the numbers of the process, what the user database says
about them, and the tests by which allow-lists name users and groups.  The
database has the host's users and groups in the order in which they are searched;
the first entry that matches counts.
-/

namespace ContainerLaunch

/-! ## The user and group database -/

/-- A user of the host. -/
structure Account where
  name : String
  uid : UInt32
  gid : UInt32
  gecos : String
  home : String
  shell : String
  deriving DecidableEq, Repr, Inhabited

/-- A group, by number and name. -/
structure UnixGroup where
  gid : UInt32
  name : String
  deriving DecidableEq, Repr, Inhabited

/-- The user and group database. -/
structure Directory where
  users : List Account
  groups : List UnixGroup
  deriving Inhabited

namespace Directory

/-- The first user with a number. -/
def userById (d : Directory) (uid : UInt32) : Option Account :=
  d.users.find? fun u => u.uid == uid

/-- The first user with a name. -/
def userByName (d : Directory) (name : String) : Option Account :=
  d.users.find? fun u => u.name == name

/-- The first group with a number. -/
def groupById (d : Directory) (gid : UInt32) : Option UnixGroup :=
  d.groups.find? fun g => g.gid == gid

/-- The first group with a name. -/
def groupByName (d : Directory) (name : String) : Option UnixGroup :=
  d.groups.find? fun g => g.name == name

end Directory

/-! ## The calling process -/

/-- The numbers that the kernel keeps for a process. -/
structure Credentials where
  uid : UInt32
  gid : UInt32
  euid : UInt32
  /-- The supplementary groups, in order. -/
  groups : List UInt32
  deriving DecidableEq, Repr, Inhabited

/-- The identity of the calling process. -/
structure Caller where
  uid : UInt32
  gid : UInt32
  euid : UInt32
  username : String
  home : String
  shell : String
  gecos : String
  groups : List UnixGroup
  deriving DecidableEq, Repr, Inhabited

namespace Caller

/-- A supplementary group under the name that the database gives it, if any. -/
def knownGroup (d : Directory) (gid : UInt32) : Option UnixGroup :=
  (d.groupById gid).map fun g => ⟨gid, g.name⟩

/-- The caller that credentials and the user database describe. -/
def ofCredentials (c : Credentials) (d : Directory) : Caller :=
  let groups := c.groups.filterMap (knownGroup d)
  match d.userById c.uid with
  | some u => ⟨c.uid, c.gid, c.euid, u.name, u.home, u.shell, u.gecos, groups⟩
  | none => ⟨c.uid, c.gid, c.euid, "", "", "", "", groups⟩

def isSuperuser (c : Caller) : Bool :=
  c.uid == 0

def namesOfGroups (c : Caller) : List String :=
  c.groups.map UnixGroup.name

/-- Whether an entry of an allow-list names the caller, by login name or number. -/
def isNamedBy (c : Caller) (entry : String) : Bool :=
  let entry := Text.trim entry
  entry == c.username || Text.u32? entry == some c.uid

/-- Whether an allow-list of users names the caller. -/
def isInUsers (c : Caller) (list : List String) : Bool :=
  list.any c.isNamedBy

/-- Whether an entry of an allow-list names a group of the caller: a number is
one of the primary or a supplementary group, anything else the name of a
supplementary group. -/
def hasGroupNamedBy (c : Caller) (entry : String) : Bool :=
  let entry := Text.trim entry
  match Text.u32? entry with
  | some id => id == c.gid || c.groups.any fun g => g.gid == id
  | none => c.groups.any fun g => g.name == entry

/-- Whether an allow-list of groups names a group of the caller. -/
def isInGroups (c : Caller) (list : List String) : Bool :=
  list.any c.hasGroupNamedBy

end Caller

/-- What the next stage needs to know about the user of the container. -/
structure ContainerUser where
  username : String
  gecos : String
  uid : UInt32
  gid : UInt32
  shell : String
  home : String
  groups : SortedMap UInt32 String
  deriving BEq, Inhabited

namespace ContainerUser

/-- A user and groups that the caller asks for in place of its own. -/
structure Target where
  uid : UInt32
  gids : List UInt32
  deriving DecidableEq, Repr

/-- The groups with one more, if the database knows it and it is not there. -/
def addGroup (d : Directory) (groups : SortedMap UInt32 String) (gid : UInt32) :
    SortedMap UInt32 String :=
  if groups.contains gid then groups
  else
    match d.groupById gid with
    | some g => groups.insert gid g.name
    | none => groups

/-- The information about a target user, before its groups. -/
def ofTarget (d : Directory) (home : String) (uid : UInt32) : ContainerUser :=
  match d.userById uid with
  | some u => ⟨u.name, u.gecos, u.uid, u.gid, u.shell, home, .empty⟩
  | none => ⟨"", "", uid, 0, "", home, .empty⟩

def ofCaller (c : Caller) : ContainerUser :=
  ⟨c.username, c.gecos, c.uid, c.gid, c.shell, c.home,
    .ofList (c.groups.map fun g => (g.gid, g.name))⟩

/-- The information about the user of the container: the target if one is asked
for, and the caller otherwise; the home directory is always the caller's. -/
def describe (d : Directory) (c : Caller) (target : Option Target) : ContainerUser :=
  let (info, gids) :=
    match target with
    | some t => (ofTarget d c.home t.uid, t.gids)
    | none => (ofCaller c, c.groups.map UnixGroup.gid)
  { info with groups := (gids ++ [info.gid]).foldl (addGroup d) info.groups }

/-- A group number as the key of an object: digits without a leading zero. -/
def keyNumber (key : String) : Option UInt32 :=
  match key.toList with
  | '0' :: _ :: _ => none
  | cs => (Text.natOfDigits cs >>= Text.below UInt32.size).map UInt32.ofNat

def groupsCodec : Json.Codec (SortedMap UInt32 String) where
  write m := .object (m.entries.map fun e => (Text.ofUInt32 e.1, .string e.2))
  read
    | .object fields => do
      let entries ← fields.mapM fun f => do
        let gid ← keyNumber f.1
        let name ← Json.Codec.text.read f.2
        some (gid, name)
      some (.ofList entries)
    | _ => none

def schema : Json.Schema ContainerUser where
  fields := [
    .needed "username" .text username fun v u => { u with username := v },
    .needed "gecos" .text gecos fun v u => { u with gecos := v },
    .needed "uid" .u32 ContainerUser.uid fun v u => { u with uid := v },
    .needed "gid" .u32 ContainerUser.gid fun v u => { u with gid := v },
    .needed "shell" .text shell fun v u => { u with shell := v },
    .needed "home" .text home fun v u => { u with home := v },
    .needed "groups" groupsCodec groups fun v u => { u with groups := v }]
  initial := ⟨"", "", 0, 0, "", "", .empty⟩

end ContainerUser
end ContainerLaunch
