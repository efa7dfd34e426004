import ContainerLaunch.Host.Action
/-!
# The mount table and autofs

Reading the kernel's table of mounts.  A line has, before a lone dash, the mount
point as its fifth field and, after it, the file system type and the source.
Blanks and backslashes in a mount point are written as three octal digits.

An autofs mount may expire once the container has its own mounts.  So what the
container needs from below one is opened beforehand, and the descriptor is kept.
What cannot be resolved or opened is left out.
-/

namespace ContainerLaunch

structure MountEntry where
  mountPoint : Path
  kind : String
  source : String
  deriving DecidableEq, Repr, Inhabited

namespace MountEntry

def octalDigit (b : UInt8) : Option Nat :=
  if 0x30 ≤ b ∧ b ≤ 0x37 then some (b.toNat - 0x30) else none

/-- The octet that three digits write, if it is one. -/
def octalOctet (a b c : UInt8) : Option UInt8 := do
  let n := (← octalDigit a) * 64 + (← octalDigit b) * 8 + (← octalDigit c)
  if n < 256 then some (UInt8.ofNat n) else none

/-- A field with its octal escapes undone. -/
def unescape : List UInt8 → List UInt8
  | 0x5c :: a :: b :: c :: rest =>
    match octalOctet a b c with
    | some octet => octet :: unescape rest
    | none => 0x5c :: unescape (a :: b :: c :: rest)
  | octet :: rest => octet :: unescape rest
  | [] => []

def unescapeField (field : String) : String :=
  Text.readLossy (ByteArray.mk (unescape (Text.octets field).toList).toArray)

/-- The mount that a line describes, if it is well formed. -/
def ofLine (line : String) : Option MountEntry := do
  let (before, after) ← Text.cutAtList [' ', '-', ' '] line.toList
  let mountPoint ← (Text.words (String.ofList before))[4]?
  match Text.words (String.ofList after) with
  | [] => none
  | kind :: rest => some ⟨⟨unescapeField mountPoint⟩, kind, rest.head?.getD ""⟩

/-- The mounts of a table; malformed lines do not count. -/
def parse (content : String) : List MountEntry :=
  (Text.lines content).filterMap ofLine

end MountEntry

/-! ## Pinning what lies on autofs -/

namespace Autofs

/-- The autofs mount points of a mount table. -/
def points (h : Host) (table : Path) : Except Error (List Path) :=
  match h.readText table with
  | .ok content =>
    .ok (((MountEntry.parse content).filter fun m => m.kind == "autofs").map
      MountEntry.mountPoint)
  | .error cause => .error (.atPath table cause)

/-- Whether a path lies at or below one of several mount points. -/
def isBelow (points : List Path) (p : Path) : Bool :=
  points.any p.isWithin

/-- A path is opened if it lies below an autofs mount point. -/
def pin (points : List Path) (source : Path) : Action (Option OpenFile) := do
  let resolved ← Action.check (.atPath source) fun h => h.canonical source
  if isBelow points resolved then return some (← Action.openFile .read resolved)
  else return none

/-- The descriptors of those of several paths that lie below an autofs mount
point and can be opened. -/
def pinEach (points : List Path) : List Path → Action (List OpenFile)
  | [] => return []
  | source :: rest => do
    let first ← Action.outcome (pin points source)
    let more ← pinEach points rest
    match first with
    | .ok (some file) => return file :: more
    | _ => return more

/-- Every candidate below an autofs mount point is pinned. -/
def pinCandidates (points : List Path) (candidates : List Path) : Action (List OpenFile) :=
  if points.isEmpty then return [] else pinEach points candidates

end Autofs
end ContainerLaunch
