import ContainerLaunch.Host.State
import ContainerLaunch.Json.Codec
/-!
# Ranges of user and group numbers

A user namespace sees the numbers of the host through a map of ranges, one range
to a line.  The text of a map has a bounded room in the handoff region.

The administrator sets ranges of numbers aside for users, one range to a line of
a file.  A user is named there by name or number; a user without a name is found
by number only.
-/

namespace ContainerLaunch

/-- A range of numbers in the container and on the host. -/
structure IdMapLine where
  containerId : UInt32
  hostId : UInt32
  /-- How many numbers there are. -/
  size : UInt32
  deriving DecidableEq, Repr, Inhabited

namespace IdMapLine

def single (id : UInt32) : IdMapLine := ⟨id, id, 1⟩

def schema : Json.Schema IdMapLine where
  fields := [
    .needed "containerId" .u32 containerId fun v m => { m with containerId := v },
    .needed "hostId" .u32 hostId fun v m => { m with hostId := v },
    .needed "size" .u32 size fun v m => { m with size := v }]
  initial := ⟨0, 0, 0⟩

/-- A range as the kernel reads it. -/
def line (m : IdMapLine) : String :=
  s!"{m.containerId} {m.hostId} {m.size}\n"

/-- The room for the text of a map in the handoff region. -/
def maxText : Nat := 4096

/-- A map as the kernel reads it. -/
def text (ms : List IdMapLine) : String :=
  Text.join "" (ms.map line)

def checkedText (field : String) (ms : List IdMapLine) : Except Error String :=
  if maxText - 1 ≤ (text ms).utf8ByteSize then .error (.capacityExceeded field (maxText - 1))
  else .ok (text ms)

end IdMapLine

/-! ## Ranges set aside -/

/-- A range of numbers set aside for an owner. -/
structure SubIdRange where
  /-- The owner, by name or number, as it is written. -/
  owner : String
  start : UInt32
  /-- How many numbers there are. -/
  count : UInt32
  deriving DecidableEq, Repr, Inhabited

namespace SubIdRange

/-- The range that a line describes, if it is well formed. -/
def ofLine (line : String) : Option SubIdRange :=
  match Text.pieces ':' line with
  | owner :: start :: count :: _ => do
    let start ← Text.u32? (Text.trim start)
    let count ← Text.u32? (Text.trim count)
    some ⟨owner, start, count⟩
  | _ => none

/-- Whether a line, without white space around it, may describe a range. -/
def isEntry (line : String) : Bool :=
  line != "" && (Text.stripStart "#" line).isNone

/-- The ranges of a file; comments and malformed lines do not count. -/
def parse (content : String) : List SubIdRange :=
  (((Text.lines content).map Text.trim).filter isEntry).filterMap ofLine

/-- Whether a range is set aside for a user. -/
def isFor (r : SubIdRange) (username : String) (uid : UInt32) : Bool :=
  r.count != 0 && ((username != "" && r.owner == username) || Text.u32? r.owner == some uid)

/-- The first range that is set aside for a user. -/
def first? (rs : List SubIdRange) (username : String) (uid : UInt32) : Option SubIdRange :=
  rs.find? fun r => r.isFor username uid

/-- The ranges of the file that a path names. -/
def load (h : Host) (p : Path) : Except Error (List SubIdRange) :=
  match h.readText p with
  | .ok content => .ok (parse content)
  | .error cause => .error (.atPath p cause)

end SubIdRange
end ContainerLaunch
