import ContainerLaunch.Host.State
/-!
# Proofs of an instance

Before a privileged launch joins an instance, the process that the record names
has to show that it was started by the privileged launcher.  Such a process and
its parent have entries under `/proc` that their user cannot read but owns in
part, a combination that no process of the user's own making has.
-/

namespace ContainerLaunch

/-- What can be read about a process, by paths relative to its directory. -/
structure ProcessView where
  linkTarget : Path → Except IoError Path
  owner : Path → Except IoError (UInt32 × UInt32)
  readText : Path → Except IoError String

namespace ProcessView

/-- What can be read on a host from a directory on. -/
def ofDirectory (h : Host) (directory : Place) : ProcessView where
  linkTarget p := (h.within (some directory)).linkTarget p
  owner p := ((h.within (some directory)).stat p).map fun inode => (inode.uid, inode.gid)
  readText p := (h.within (some directory)).readText p

end ProcessView

/-- Who joins, and which parent the record names. -/
structure JoinClaim where
  uid : UInt32
  gid : UInt32
  ppid : Int32
  deriving DecidableEq, Repr

/-- What an instance has to show. -/
inductive InstanceProof where
  /-- It has no user namespace. -/
  | noUserNamespace
  /-- Its root link may not be read. -/
  | rootLinkDenied
  | taskOwnership
  | parentPid
  /-- The root link of its parent may not be read. -/
  | parentRootLinkDenied
  | parentTaskOwnership
  | supervisorName
  deriving DecidableEq, Repr, Inhabited

namespace InstanceProof

/-- Every proof, in the order in which they are asked for. -/
def all : List InstanceProof := [
  .noUserNamespace, .rootLinkDenied, .taskOwnership, .parentPid, .parentRootLinkDenied,
  .parentTaskOwnership, .supervisorName]

def supervisor : String := "sinit"

/-- The host's number in the first line of a map of user numbers. -/
def hostNumber (content : String) : Option UInt32 := do
  let line ← (Text.lines content).head?
  let field ← (Text.words line)[1]?
  Text.u32? field

/-- The parent that the status of a process names. -/
def statusParent (status : String) : Option Int32 := do
  let value ← (Text.lines status).findSome? (Text.stripStart "PPid:")
  Text.i32? (Text.trim value)

/-- A link that may not be read. -/
def requireDenied (v : ProcessView) (p : Path) : Except String Unit :=
  match v.linkTarget p with
  | .error cause =>
    if cause.isDenied then .ok () else .error "trying to join a wrong instance process"
  | .ok _ => .error "trying to join a wrong instance process"

def requireOwner (v : ProcessView) (p : Path) (c : JoinClaim) (what : String) :
    Except String Unit :=
  match v.owner p with
  | .error cause =>
    .error s!"error while getting information for {what} task directory: {cause.message}"
  | .ok (uid, gid) =>
    if uid = c.uid ∧ gid = c.gid then .ok ()
    else .error s!"{what} owned by {uid}:{gid} instead of {c.uid}:{c.gid}"

/-- A map of user numbers that is missing or starts at the superuser. -/
def requireHostNumbers (v : ProcessView) : Except String Unit :=
  match v.readText ⟨"uid_map"⟩ with
  | .error cause =>
    if cause.isNotFound then .ok ()
    else .error s!"failed to read user namespace mapping: {cause.message}"
  | .ok content =>
    match hostNumber content with
    | some id =>
      if 0 < id then
        .error "trying to join an instance running with user namespace enabled"
      else .ok ()
    | none => .ok ()

/-- A status that names the recorded parent. -/
def expectParent (v : ProcessView) (c : JoinClaim) : Except String Unit :=
  match v.readText ⟨"status"⟩ with
  | .error cause => .error s!"could not read status: {cause.message}"
  | .ok status =>
    match statusParent status with
    | some ppid =>
      if 1 < ppid ∧ ppid = c.ppid then .ok ()
      else .error "orphaned (or faked) instance process"
    | none => .error "orphaned (or faked) instance process"

def commandOf (content : String) : String :=
  String.ofList (Text.dropTrailing (· == '\n') content.toList)

def expectSupervisor (v : ProcessView) : Except String Unit :=
  match v.readText ⟨"comm"⟩ with
  | .error cause => .error s!"failed to read comm: {cause.message}"
  | .ok content =>
    if commandOf content = supervisor then .ok ()
    else .error s!"{supervisor} not found in comm, wrong instance process"

def parentPath (c : JoinClaim) : Path :=
  Path.join ⟨".."⟩ ⟨Text.ofInt32 c.ppid⟩

/-- Whether a proof holds; if not, why. -/
def check (v : ProcessView) (c : JoinClaim) : InstanceProof → Except String Unit
  | .noUserNamespace => requireHostNumbers v
  | .rootLinkDenied => requireDenied v ⟨"root"⟩
  | .taskOwnership => requireOwner v ⟨"task"⟩ c "instance process"
  | .parentPid => expectParent v c
  | .parentRootLinkDenied => requireDenied v ((parentPath c).join ⟨"root"⟩)
  | .parentTaskOwnership =>
    requireOwner v ((parentPath c).join ⟨"task"⟩) c "parent instance process"
  | .supervisorName => expectSupervisor v

/-- The first of several proofs that fails ends the launch. -/
def verifyEach (v : ProcessView) (c : JoinClaim) : List InstanceProof → Except Error Unit
  | [] => .ok ()
  | proof :: rest =>
    match check v c proof with
    | .ok () => verifyEach v c rest
    | .error reason => .error (.instanceIntegrity reason)

def checkAll (v : ProcessView) (c : JoinClaim) : Except Error Unit :=
  verifyEach v c all

/-- A list of proofs is verified exactly if each of them holds. -/
theorem verifyEach_ok_iff {v : ProcessView} {c : JoinClaim} {ps : List InstanceProof} :
    verifyEach v c ps = .ok () ↔ ∀ p ∈ ps, check v c p = .ok () := by
  induction ps with
  | nil => simp [verifyEach]
  | cons p rest ih =>
    simp only [verifyEach, List.mem_cons, forall_eq_or_imp]
    cases hp : check v c p with
    | ok u => simp [ih]
    | error e => simp

end InstanceProof
end ContainerLaunch
