import ContainerLaunch.Caller
import ContainerLaunch.Capability.Classes
import ContainerLaunch.Json.Reader
import ContainerLaunch.Notice
import ContainerLaunch.Policy.Basic
/-!
# Granting capabilities

Which capabilities the process of a launch is given.  The superuser starts from
what the policy leaves it and may add to that; any other caller is given what it
asks for, reduced, where the launch is privileged, to what the administrator's
table grants to it or to one of its groups.  Drops come last in both cases.

The table says which capabilities a user or a group may be given.  Its entries
are texts; a capability is granted under a name if one of the texts is its
canonical name in any case.
-/

namespace ContainerLaunch

/-! ## The authorization table -/

/-- The capabilities that users and groups may be given. -/
structure CapabilityTable where
  users : SortedMap String (List String)
  groups : SortedMap String (List String)
  deriving Inhabited

namespace CapabilityTable

def empty : CapabilityTable := ⟨.empty, .empty⟩

def schema : Json.Schema CapabilityTable where
  fields := [
    .plain "users" (.dictionary (.list .text)) users fun v t => { t with users := v },
    .plain "groups" (.dictionary (.list .text)) groups fun v t => { t with groups := v }]
  initial := empty

/-- The table that a JSON text describes; a blank text describes the empty one. -/
def parse (text : String) : Except Error CapabilityTable :=
  if Text.trim text = "" then .ok empty
  else
    match Json.parse text >>= schema.read with
    | some table => .ok table
    | none => .error (.malformed "not a capability table")

def ofUser (t : CapabilityTable) (user : String) : List String :=
  (t.users.get? user).getD []

def ofGroup (t : CapabilityTable) (group : String) : List String :=
  (t.groups.get? group).getD []

/-- Whether a list of grants names a capability, in any case. -/
def grants (granted : List String) (name : String) : Bool :=
  granted.any fun g => Text.sameIgnoringCase g name

/-- The names that a list of grants holds, and those that it does not. -/
def divide (granted names : List String) : List String × List String :=
  names.partition (grants granted)

end CapabilityTable

/-! ## Grants -/

/-- What a launch asks for. -/
structure CapabilityDemand where
  add : List String
  drop : List String
  existing : List String
  noPrivileges : Bool
  /-- Whether the superuser keeps its privileges. -/
  keepPrivileges : Bool
  /-- Whether the superuser asks to run as somebody else. -/
  targetIds : Bool
  deriving DecidableEq, Repr, Inhabited

/-- What a process is given. -/
structure Grant where
  set : CapabilitySet
  noNewPrivileges : Bool
  notices : List Notice
  deriving Inhabited

namespace Grant

/-- A notice about a list of names, unless it is empty. -/
def noticeOf (notice : List String → Notice) (names : List String) : List Notice :=
  if names.isEmpty then [] else [notice names]

/-- What the policy leaves the superuser under a request. -/
def rootMode (mode : RootCapabilities) (r : CapabilityDemand) : RootCapabilities :=
  if r.noPrivileges then .no
  else if r.keepPrivileges then .full
  else if r.targetIds then .no
  else mode

/-- The capabilities that the table names for the superuser and its groups. -/
def rootTable (c : Caller) (t : CapabilityTable) : CapabilitySet :=
  c.namesOfGroups.foldl (fun s g => s.union (Capability.named (t.ofGroup g)))
    (Capability.named (t.ofUser "root"))

/-- The capabilities that the superuser starts from. -/
def rootStart (c : Caller) (t : CapabilityTable) : RootCapabilities → CapabilitySet
  | .full => .full
  | .table => rootTable c t
  | .no => .empty

def forRoot (c : Caller) (t : CapabilityTable) (mode : RootCapabilities) (r : CapabilityDemand) :
    Grant :=
  let mode := rootMode mode r
  let set := (rootStart c t mode).union (Capability.named r.add)
  { set := set.diff (Capability.named r.drop)
    noNewPrivileges := mode == .no
    notices := noticeOf .unknownAdds (Capability.unknownIn r.add) ++
      noticeOf .unknownDrops (Capability.unknownIn r.drop) }

/-- What a caller other than the superuser asks for. -/
def asked (r : CapabilityDemand) : CapabilitySet :=
  (Capability.named r.add).union (Capability.named r.existing)

/-- Those of a set of capabilities that a list of the table grants. -/
def allowedBy (granted : List String) (wanted : CapabilitySet) : CapabilitySet :=
  Capability.named (CapabilityTable.divide granted wanted.names).1

/-- Those of a set of capabilities that the table grants to a caller or to one
of its groups. -/
def authorized (c : Caller) (t : CapabilityTable) (wanted : CapabilitySet) : CapabilitySet :=
  c.namesOfGroups.foldl (fun s g => s.union (allowedBy (t.ofGroup g) wanted))
    (allowedBy (t.ofUser c.username) wanted)

/-- What a caller other than the superuser is given; `enforced` says that the
table has to grant it. -/
def forUser (c : Caller) (t : CapabilityTable) (enforced : Bool) (r : CapabilityDemand) : Grant :=
  let wanted := asked r
  let given := if enforced then authorized c t wanted else wanted
  { set := given.diff (Capability.named r.drop)
    noNewPrivileges := true
    notices := noticeOf .unknownAdds (Capability.unknownIn r.add) ++
      noticeOf .notAuthorized (wanted.diff given).names ++
      noticeOf .unknownDrops (Capability.unknownIn r.drop) }

end Grant
end ContainerLaunch
