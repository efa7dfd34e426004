import ContainerLaunch.Handoff.Plan
import ContainerLaunch.Host.Action
import ContainerLaunch.Octets
/-!
# The handoff region

The memory through which a plan reaches the next stage: a header of fixed size,
and the configuration as a payload after it.  Every text and list has a buffer
of fixed size in the header; what a buffer holds beyond the octets that are
kept here is zero.  A plan is published as a whole, after everything that could
fail, and replaces whatever was published before.
-/

namespace ContainerLaunch

/-- What the native stage says before a launch is prepared. -/
structure NativeStage where
  isSuid : Bool
  containerPid : Int32
  deriving DecidableEq, Repr, Inhabited

structure Region where
  /-- How many octets there are for the payload. -/
  capacity : Nat
  stage : NativeStage
  isInstance : Bool
  noNewPrivs : Bool
  uidMap : ByteArray
  gidMap : ByteArray
  allowSetgroups : Bool
  noSetgroups : Bool
  newuidmap : ByteArray
  newgidmap : ByteArray
  targetUid : UInt32
  targetGids : List UInt32
  /-- How many groups there are. -/
  numGids : Int32
  capabilities : CapabilityWords
  creationFlags : UInt32
  mountPropagation : UInt64
  joinOnly : Bool
  bringLoopback : Bool
  joinPaths : NamespaceKind → ByteArray
  /-- The descriptor of the working directory, or a negative number. -/
  workingDirectoryFd : Int32
  /-- The descriptor of the image, or a negative number. -/
  imageFd : Int32
  fds : List Int32
  /-- How many descriptors there are. -/
  numFds : Int32
  masterPropagateMount : Bool
  hybridWorkflow : Bool
  nvCcliCaps : Bool
  payloadSize : Nat
  payload : ByteArray
  deriving Inhabited

namespace Region

def headerSize : Nat := 49408

/-- A region of zeros but for what the native stage said. -/
def zero (capacity : Nat) (stage : NativeStage) : Region where
  capacity := capacity
  stage := stage
  isInstance := false
  noNewPrivs := false
  uidMap := .empty
  gidMap := .empty
  allowSetgroups := false
  noSetgroups := false
  newuidmap := .empty
  newgidmap := .empty
  targetUid := 0
  targetGids := []
  numGids := 0
  capabilities := ⟨0, 0, 0, 0, 0⟩
  creationFlags := 0
  mountPropagation := 0
  joinOnly := false
  bringLoopback := false
  joinPaths _ := .empty
  workingDirectoryFd := 0
  imageFd := 0
  fds := []
  numFds := 0
  masterPropagateMount := false
  hybridWorkflow := false
  nvCcliCaps := false
  payloadSize := 0
  payload := .empty

/-- The size from which on a region does not fit into memory. -/
def addressSpace : Nat := 1 <<< 47

/-- A new region in memory, in which no descriptor is set. -/
def anonymous (capacity : Nat) (stage : NativeStage) : Except Error Region :=
  if addressSpace ≤ headerSize + capacity then .error (.call "mmap" .noMemory)
  else .ok { zero capacity stage with workingDirectoryFd := -1, imageFd := -1 }

/-- The region in a file of a size that the native stage has filled. -/
def ofFile (size : Nat) (stage : NativeStage) : Except Error Region :=
  if size ≤ headerSize then
    .error (.invalid
      s!"starter region of {size} bytes is smaller than its header ({headerSize} bytes)")
  else .ok (zero (size - headerSize) stage)

/-- The octets of a path that need not be there. -/
def pathOctets (p : Option Path) : ByteArray :=
  (p.map fun p => Text.octets p.text).getD .empty

/-- An array whose first values are replaced; an array of zeros is empty here. -/
def overlaid {α : Type} (array values : List α) : List α :=
  values ++ array.drop values.length

/-! ## Publishing

A region is written part by part, and each text and list is put over a buffer or
an array that was cleared before. -/

/-- The namespaces of a plan are written. -/
def withNamespaces (r : Region) (p : Plan) : Region :=
  { r with
    creationFlags := p.creationFlags
    mountPropagation := p.mountPropagation
    joinOnly := p.joinOnly
    bringLoopback := p.bringLoopback
    joinPaths := fun k => Octets.rewritten (r.joinPaths k) (pathOctets (p.joinPaths k)) }

/-- The users, maps and capabilities of a plan are written, the maps as texts. -/
def withPrivileges (r : Region) (p : Plan) (uidMap gidMap : String) : Region :=
  { r with
    noNewPrivs := p.noNewPrivs
    uidMap := Octets.rewritten r.uidMap (Text.octets uidMap)
    gidMap := Octets.rewritten r.gidMap (Text.octets gidMap)
    allowSetgroups := p.allowSetgroups
    noSetgroups := p.noSetgroups
    newuidmap := Octets.rewritten r.newuidmap (pathOctets p.newuidmap)
    newgidmap := Octets.rewritten r.newgidmap (pathOctets p.newgidmap)
    targetUid := p.targetUid
    targetGids := overlaid [] p.targetGids
    numGids := Int32.ofNat p.targetGids.length
    capabilities := p.capabilities
    isInstance := p.isInstance }

/-- The descriptors of a plan and the flags of the native stage are written. -/
def withDescriptors (r : Region) (p : Plan) : Region :=
  { r with
    workingDirectoryFd := p.workingDirectoryFd.getD (-1)
    imageFd := p.imageFd.getD (-1)
    fds := overlaid [] p.keptDescriptors
    numFds := Int32.ofNat p.keptDescriptors.length
    masterPropagateMount := p.masterPropagateMount
    hybridWorkflow := p.hybridWorkflow
    nvCcliCaps := p.nvCcliCaps }

def withPayload (r : Region) (payload : ByteArray) : Region :=
  { r with
    payloadSize := payload.size
    payload := Octets.rewritten r.payload payload }

/-- A descriptor will stay open when the next stage is executed. -/
def keepOpen (fd : Int32) : Action Unit := do
  let isOpen ← Action.observe fun h => 0 ≤ fd && (h.descriptor? fd.toNatClampNeg).isSome
  if isOpen then modify fun h => h.keepAcrossExec fd.toNatClampNeg
  else Action.fail (.call "fcntl(F_GETFD)" .badDescriptor)

end Region

/-- Steps that act on the host and write to a region.  Where one of them fails, what
was written before it stays in the region. -/
abbrev Publication := ExceptT Error (StateT Region (StateM Host))

namespace Publication

variable {α : Type}

/-- How a publication ends, the region that it leaves, and the host after it. -/
def perform (a : Publication α) (r : Region) (h : Host) : (Except Error α × Region) × Host :=
  ((ExceptT.run a).run r).run h

/-- A step that does not touch the region. -/
def onHost (a : Action α) : Publication α :=
  ExceptT.mk (StateT.lift (ExceptT.run a))

end Publication

namespace Region

/-- A plan and a payload are published: everything that can fail comes first. -/
def publishing (p : Plan) (payload : ByteArray) : Publication Unit := do
  let (uidMap, gidMap) ← Publication.onHost (Action.ofExcept p.checkedTexts)
  let r ← get
  if r.capacity ≤ payload.size then
    throw (.capacityExceeded "engine configuration" r.capacity)
  Publication.onHost (p.keptDescriptors.forM keepOpen)
  modify fun r => r.withNamespaces p
  modify fun r => r.withPrivileges p uidMap gidMap
  modify fun r => r.withDescriptors p
  modify fun r => r.withPayload payload

/-- The region in which a plan and a payload were published. -/
def publish (r : Region) (p : Plan) (payload : ByteArray) : Action Region := do
  let (outcome, r) ← (ExceptT.run (publishing p payload)).run r
  Action.ofExcept (outcome.map fun _ => r)

/-! ## What the next stage reads -/

/-- The first `count` values of an array of `size` values. -/
def arrayPrefix {α : Type} [OfNat α 0] (values : List α) (count : Int32) (size : Nat) : List α :=
  (values ++ List.replicate size 0).take (min count.toNatClampNeg size)

def payloadRead (r : Region) : ByteArray :=
  let size := min r.payloadSize r.capacity
  (Octets.padded r.payload size).extract 0 size

def textIn (buffer : ByteArray) : String :=
  Text.readLossy (Octets.beforeZero buffer)

/-- The path of the namespace of a kind to join, empty if there is none. -/
def pathToJoin (r : Region) (kind : NamespaceKind) : String := textIn (r.joinPaths kind)

def uidMapText (r : Region) : String := textIn r.uidMap

def gidMapText (r : Region) : String := textIn r.gidMap

def keptDescriptors (r : Region) : List Int32 :=
  arrayPrefix r.fds r.numFds Plan.maxKept

def targetGroups (r : Region) : List UInt32 :=
  arrayPrefix r.targetGids r.numGids Plan.maxGids

def summary (r : Region) : String :=
  "StarterRegion \x7b len: " ++ toString (headerSize + r.capacity) ++ ", engine_capacity: " ++
    toString r.capacity ++ " \x7d"

/-! ## The octets of a region -/

def flagOctets (b : Bool) : List UInt8 := [if b then 1 else 0]

/-- The octets of a signed 32-bit number. -/
def int32Octets (n : Int32) : List UInt8 := Octets.writing 4 n.toUInt32.toNat

/-- The octets of the five capability classes. -/
def maskOctets (m : CapabilityWords) : List UInt8 :=
  [m.permitted, m.effective, m.inheritable, m.bounding, m.ambient].flatMap fun w =>
    Octets.writing 8 w.toNat

/-- What stands where in the header, in order of the offsets; the address of the
payload is left out. -/
def layout (r : Region) : List (Nat × List UInt8) := [
  (0, int32Octets r.stage.containerPid),
  (4, flagOctets r.isInstance),
  (8, flagOctets r.noNewPrivs),
  (9, r.uidMap.toList),
  (4105, r.gidMap.toList),
  (8201, flagOctets r.allowSetgroups),
  (8202, flagOctets r.noSetgroups),
  (8203, r.newuidmap.toList),
  (12299, r.newgidmap.toList),
  (16396, Octets.writing 4 r.targetUid.toNat),
  (16400, r.targetGids.flatMap fun g => Octets.writing 4 g.toNat),
  (16528, int32Octets r.numGids),
  (16536, maskOctets r.capabilities),
  (16576, Octets.writing 4 r.creationFlags.toNat),
  (16584, Octets.writing 8 r.mountPropagation.toNat),
  (16592, flagOctets r.joinOnly),
  (16593, flagOctets r.bringLoopback),
  (16594, (r.joinPaths .network).toList),
  (20690, (r.joinPaths .mount).toList),
  (24786, (r.joinPaths .user).toList),
  (28882, (r.joinPaths .ipc).toList),
  (32978, (r.joinPaths .uts).toList),
  (37074, (r.joinPaths .cgroup).toList),
  (41170, (r.joinPaths .pid).toList),
  (45272, int32Octets r.workingDirectoryFd),
  (45276, int32Octets r.imageFd),
  (45280, r.fds.flatMap int32Octets),
  (49376, int32Octets r.numFds),
  (49380, flagOctets r.stage.isSuid),
  (49381, flagOctets r.masterPropagateMount),
  (49382, flagOctets r.hybridWorkflow),
  (49383, flagOctets r.nvCcliCaps),
  (49384, Octets.writing 8 r.payloadSize),
  (49392, Octets.writing 8 r.capacity),
  (headerSize, r.payload.toList)]

/-- Octets put one after the other at their offsets, with zeros between them. -/
def assemble (acc : ByteArray) : List (Nat × List UInt8) → ByteArray
  | [] => acc
  | (offset, octets) :: rest =>
    assemble (octets.foldl ByteArray.push (Octets.padded acc offset)) rest

def octets (r : Region) : ByteArray :=
  Octets.padded (assemble .empty r.layout) (headerSize + r.capacity)

end Region
end ContainerLaunch
