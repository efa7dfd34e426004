import ContainerLaunch.Image.Basic
import ContainerLaunch.Octets
/-!
# SIF descriptor tables

A SIF file starts with a header of 128 octets that says how many descriptors the
file has and where their table starts.  A descriptor takes 585 octets; those of
partitions give the file system and purpose by a code.
-/

namespace ContainerLaunch

/-- What the descriptors of a SIF file say. -/
structure SifContents where
  /-- The partitions, in order. -/
  partitions : List Partition
  oci : Bool
  deriving DecidableEq, Repr, Inhabited

/-- A descriptor of a SIF file, as far as it matters. -/
structure SifDescriptor where
  used : Bool
  kind : Int
  offset : Int
  size : Int
  fsCode : Int
  roleCode : Int
  deriving DecidableEq, Repr, Inhabited

namespace SifDescriptor

def octets : Nat := 585

/-- The kind of data that is a partition. -/
def partitionKind : Int := 0x4004

/-- The kind of data that is the index of an OCI image. -/
def ociIndexKind : Int := 0x400a

def at_ (b : ByteArray) (start : Nat) : SifDescriptor where
  kind := Octets.signed b start 4
  used := Octets.octet b (start + 4) != 0
  offset := Octets.signed b (start + 17) 8
  size := Octets.signed b (start + 25) 8
  fsCode := Octets.signed b (start + 201) 4
  roleCode := Octets.signed b (start + 205) 4

/-- The file system that a code stands for. -/
def fsOf : Int → PartitionContent
  | 1 => .squashfs
  | 2 => .ext3
  | 5 => .encrypted
  | _ => .other

/-- The purpose that a code stands for. -/
def roleOf : Int → PartitionPurpose
  | 1 => .system
  | 2 => .primary
  | 3 => .data
  | 4 => .overlay
  | _ => .other

/-- The partition that a descriptor in use describes, if it describes one. -/
def partition? (d : SifDescriptor) : Option Partition :=
  if d.used && d.kind == partitionKind then
    some ⟨fsOf d.fsCode, roleOf d.roleCode, UInt64.ofNat d.offset.toNat,
      UInt64.ofNat d.size.toNat⟩
  else none

/-- Whether a descriptor in use is the index of an OCI image. -/
def isOciIndex (d : SifDescriptor) : Bool :=
  d.used && d.kind == ociIndexKind

end SifDescriptor

namespace SifContents

def headerSize : Nat := 128

/-- The most descriptors that a header may announce. -/
def maxDescriptors : Nat := 4096

def ofDescriptors (ds : List SifDescriptor) : SifContents where
  partitions := ds.filterMap SifDescriptor.partition?
  oci := ds.any SifDescriptor.isOciIndex

def descriptors (b : ByteArray) (start count : Nat) : List SifDescriptor :=
  (List.range count).map fun i => .at_ b (start + i * SifDescriptor.octets)

/-- Whether `size` octets from an offset on can be read. -/
def readable (b : ByteArray) (start size : Nat) : Except Error Unit :=
  if size = 0 then .ok ()
  else if Int64.maxValue.toInt < start + size then .error (.io (.system .invalidArgument))
  else if b.size < start + size then .error (.io .endOfFile)
  else .ok ()

/-- What the descriptors of a file say. -/
def inspect (b : ByteArray) : Except Error SifContents := do
  readable b 0 headerSize
  let total := Octets.signed b 88 8
  let start := Octets.signed b 96 8
  if total < 0 ∨ (maxDescriptors : Int) < total ∨ start < 0 then
    .error (.invalid s!"corrupted SIF header: {total} descriptors at offset {start}")
  else do
    readable b start.toNat (total.toNat * SifDescriptor.octets)
    return ofDescriptors (descriptors b start.toNat total.toNat)

def schema : Json.Schema SifContents where
  fields := [
    .plain "partitions" (.list Partition.schema.codec) partitions
      fun v l => { l with partitions := v },
    .plain "oci" .flag oci fun v l => { l with oci := v }]
  initial := ⟨[], false⟩

/-- No more partitions are found than descriptors were read. -/
theorem length_partitions_le (ds : List SifDescriptor) :
    (ofDescriptors ds).partitions.length ≤ ds.length :=
  List.length_filterMap_le _ _

end SifContents
end ContainerLaunch
