import ContainerLaunch.Error
import ContainerLaunch.Json.Codec
/-!
# Images

What an image is: its format, the part it plays in a launch, and the partitions
in it.  A bare image is a single partition with the root file system.
-/

namespace ContainerLaunch

/-- The format of an image. -/
inductive ImageFormat where
  | squashfs
  | ext3
  | sandbox
  | sif
  | ociSif
  deriving DecidableEq, Repr, Inhabited

namespace ImageFormat

def name : ImageFormat → String
  | .squashfs => "squashfs"
  | .ext3 => "ext3"
  | .sandbox => "sandbox"
  | .sif => "sif"
  | .ociSif => "ocisif"

/-- The usual way to write a format. -/
def title : ImageFormat → String
  | .squashfs => "squashfs"
  | .ext3 => "ext3"
  | .sandbox => "sandbox"
  | .sif => "SIF"
  | .ociSif => "OCI-SIF"

def all : List ImageFormat := [.squashfs, .ext3, .sandbox, .sif, .ociSif]

/-- Whether it is a container of partitions. -/
def isSif : ImageFormat → Bool
  | .sif | .ociSif => true
  | _ => false

def codec : Json.Codec ImageFormat := .choice name all []

end ImageFormat

/-- The part that an image plays in a launch. -/
inductive ImageRole where
  | root
  | overlay
  | data
  deriving DecidableEq, Repr, Inhabited

namespace ImageRole

def name : ImageRole → String
  | .root => "root"
  | .overlay => "overlay"
  | .data => "data"

def codec : Json.Codec ImageRole := .choice name [.root, .overlay, .data] []

end ImageRole

/-- The file system in a partition. -/
inductive PartitionContent where
  | squashfs
  | ext3
  | encrypted
  | sandbox
  | other
  deriving DecidableEq, Repr, Inhabited

namespace PartitionContent

def name : PartitionContent → String
  | .squashfs => "squashfs"
  | .ext3 => "ext3"
  | .encrypted => "encryptedsquashfs"
  | .sandbox => "sandbox"
  | .other => "other"

def codec : Json.Codec PartitionContent :=
  .choice name [.squashfs, .ext3, .encrypted, .sandbox, .other] []

end PartitionContent

/-- The purpose of a partition. -/
inductive PartitionPurpose where
  | system
  | primary
  | data
  | overlay
  | other
  deriving DecidableEq, Repr, Inhabited

namespace PartitionPurpose

def name : PartitionPurpose → String
  | .system => "system"
  | .primary => "primarysystem"
  | .data => "data"
  | .overlay => "overlay"
  | .other => "other"

def codec : Json.Codec PartitionPurpose :=
  .choice name [.system, .primary, .data, .overlay, .other] []

end PartitionPurpose

/-- A file system inside an image. -/
structure Partition where
  fs : PartitionContent
  role : PartitionPurpose
  offset : UInt64
  size : UInt64
  deriving DecidableEq, Repr, Inhabited

namespace Partition

/-- The only partition of a bare image. -/
def bare (fs : PartitionContent) : Partition := ⟨fs, .primary, 0, 0⟩

def schema : Json.Schema Partition where
  fields := [
    .needed "fs" PartitionContent.codec fs fun v p => { p with fs := v },
    .needed "role" PartitionPurpose.codec role fun v p => { p with role := v },
    .needed "offset" .u64 offset fun v p => { p with offset := v },
    .needed "size" .u64 size fun v p => { p with size := v }]
  initial := ⟨.other, .other, 0, 0⟩

/-- The partition with the root file system. -/
def root? (ps : List Partition) : Option Partition :=
  ps.find? fun p => p.role == .primary

def overlays (ps : List Partition) : List Partition :=
  ps.filter fun p => p.role == .overlay

/-- Whether there is an overlay that can be written. -/
def hasWritableOverlay (ps : List Partition) : Bool :=
  (overlays ps).any fun p => p.fs == .ext3

/-- Whether the root file system is encrypted. -/
def hasEncryptedRoot (ps : List Partition) : Bool :=
  (root? ps).any fun p => p.fs == .encrypted

end Partition
end ContainerLaunch
