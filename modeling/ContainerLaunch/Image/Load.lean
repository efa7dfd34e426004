import ContainerLaunch.Host.Action
import ContainerLaunch.Image.Sif
import ContainerLaunch.Policy.Basic
/-!
# Loading images

An image is opened, its format is told by what stands at certain places of the
file, and the administrator's policy is applied to the place that was actually
opened.  An image that should be writable but lies on a read-only file system is
opened for reading, and the user is told.
-/

namespace ContainerLaunch

/-- An image that was opened and may be used. -/
structure Image where
  format : ImageFormat
  path : Path
  file : OpenFile
  writable : Bool
  partitions : List Partition
  usage : ImageRole
  deriving DecidableEq, Inhabited

/-- How the descriptors of a SIF file are read. -/
abbrev SifReader := ByteArray → Except Error SifContents

namespace Image

/-- The path under which a later stage finds the open image. -/
def source (i : Image) : Path := i.file.handlePath

/-- The partition with the root file system, which has to be there. -/
def rootPartition (i : Image) : Except Error Partition :=
  match Partition.root? i.partitions with
  | some p => .ok p
  | none => .error (.invalid s!"no root filesystem partition found in {i.path}")

/-- Whether the image has an overlay partition that can be written. -/
def hasWritableOverlay (i : Image) : Bool :=
  Partition.hasWritableOverlay i.partitions

/-- Whether the root file system is encrypted. -/
def hasEncryptedRoot (i : Image) : Bool :=
  Partition.hasEncryptedRoot i.partitions

/-- The format of a file, told by what stands at certain places. -/
def formatOf (b : ByteArray) : Option ImageFormat :=
  if Octets.holds b 0 "hsqs".toUTF8.toList then some .squashfs
  else if Octets.holds b 32 "SIF_MAGIC".toUTF8.toList then some .sif
  else if Octets.holds b 1080 [0x53, 0xEF] then some .ext3
  else none

/-- An error of opening an image; a read-only file system is told apart. -/
def openError (p : Path) (cause : IoError) : Error :=
  if cause = .system .readOnly then .readOnlyFilesystem p else .atPath p cause

/-- The file or directory of an image is opened; a directory always for reading. -/
def openFile (p : Path) (writable : Bool) : Action OpenFile := do
  let inode ← Action.check (.atPath p) fun h => h.stat p
  if inode.isDirectory then Action.openFile .directory p
  else
    let access := if writable then Access.readWrite else .read
    Action.openFound (← Action.check (openError p) fun h => h.opening access p)

/-- The same, but where the file system is read-only the image is opened for
reading; the result says whether it was opened as asked. -/
def openFallback (p : Path) (writable : Bool) : Action (OpenFile × Bool) := do
  match ← Action.outcome (openFile p writable) with
  | .ok file => return (file, writable)
  | .error (.readOnlyFilesystem place) =>
    Action.notify (.openedReadOnly place)
    return (← openFile p false, false)
  | .error e => Action.fail e

/-- What the kernel puts after the path of a file that was removed. -/
def deletedSuffix : String := " (deleted)"

/-- The path of an open file, as the link of its descriptor gives it. -/
def pathOf (file : OpenFile) : Path :=
  ⟨(Text.stripEnd deletedSuffix file.place.path.text).getD file.place.path.text⟩

/-- Whether an entry of an allow-list names an owner, by number or name. -/
def namesOwner (d : Directory) (uid : UInt32) (entry : String) : Bool :=
  let entry := Text.trim entry
  match Text.u32? entry with
  | some id => id == uid
  | none => (d.userByName entry).any fun u => u.uid == uid

/-- Whether an entry of an allow-list names an owning group, by number or name. -/
def namesGroup (d : Directory) (gid : UInt32) (entry : String) : Bool :=
  let entry := Text.trim entry
  match Text.u32? entry with
  | some id => id == gid
  | none => (d.groupByName entry).any fun g => g.gid == gid

/-- The policy about the format of an image. -/
def formatAllowed (p : Policy) (format : ImageFormat) (encrypted : Bool) : Except Error Unit :=
  let (allowed, what) :=
    match format with
    | .squashfs => (p.allowSquashfs, "squashFS")
    | .ext3 => (p.allowExtfs, "extFS")
    | .sandbox => (p.allowSandbox, "sandbox")
    | .sif | .ociSif =>
      if encrypted then (p.allowEncrypted, "encrypted SIF") else (p.allowSif, "unencrypted SIF")
  if allowed then .ok () else .error (.disallowed s!"users from running {what} containers")

/-- The policy about images: where they lie, who owns them and of which format
they are.  An empty list sets no limit. -/
def checkPolicy (p : Policy) (d : Directory) (i : Image) : Except Error Unit :=
  if !p.limitPaths.isEmpty && !p.limitPaths.any i.path.isWithin then
    .error (.disallowed "images outside of the configured container paths")
  else if !p.limitGroups.isEmpty && !p.limitGroups.any (namesGroup d i.file.inode.gid) then
    .error (.disallowed "images not owned by the required group(s)")
  else if !p.limitOwners.isEmpty && !p.limitOwners.any (namesOwner d i.file.inode.uid) then
    .error (.disallowed "images not owned by the required user(s)")
  else formatAllowed p i.format i.hasEncryptedRoot

def ofFile (inspect : SifReader) (file : OpenFile) (writable : Bool) : Except Error Image :=
  match formatOf file.inode.content with
  | none => .error (.invalid s!"{pathOf file}: unknown image format")
  | some .sif | some .ociSif => do
    let layout ← inspect file.inode.content
    let format := if layout.oci then ImageFormat.ociSif else .sif
    return ⟨format, pathOf file, file, writable, layout.partitions, .root⟩
  | some .ext3 => .ok ⟨.ext3, pathOf file, file, writable, [.bare .ext3], .root⟩
  | some .squashfs | some .sandbox =>
    .ok ⟨.squashfs, pathOf file, file, writable, [.bare .squashfs], .root⟩

/-- The image in an open file or directory. -/
def ofOpenFile (inspect : SifReader) (file : OpenFile) (writable : Bool) : Action Image := do
  if file.inode.isDirectory then
    let permitted ← Action.observe fun h => h.mayWrite (pathOf file)
    return ⟨.sandbox, pathOf file, file, writable && permitted, [.bare .sandbox], .root⟩
  else Action.ofExcept (ofFile inspect file writable)

/-- An image is opened and may be used under the policy. -/
def load (policy : Policy) (inspect : SifReader) (p : Path) (writable : Bool) :
    Action Image := do
  let (file, writable) ← openFallback p writable
  let image ← ofOpenFile inspect file writable
  let users ← Action.observe Host.users
  Action.ofExcept (checkPolicy policy users image)
  return image

end Image

/-- An overlay that a launch asks for. -/
structure OverlayRequest where
  path : Path
  writable : Bool
  deriving DecidableEq, Repr, Inhabited

namespace OverlayRequest

/-- The overlay that a text asks for: a path, and after the first colon the way
it is used, where anything but `ro` means that it is written. -/
def parse (spec : String) : OverlayRequest :=
  match Text.splitOnce ':' spec with
  | some (path, mode) => ⟨⟨path⟩, mode != "ro"⟩
  | none => ⟨⟨spec⟩, true⟩

end OverlayRequest
end ContainerLaunch
