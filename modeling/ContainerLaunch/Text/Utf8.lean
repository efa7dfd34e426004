/-!
# UTF-8

Decoding octets as UTF-8.  `readText` accepts exactly the well-formed octet
sequences; `readLossy` also takes any other sequence and puts U+FFFD for each
maximal part that no character starts with.
-/

namespace ContainerLaunch.Text

def replacement : Char := '\uFFFD'

/-- The octets that may follow a lead octet: how many there are, and the range
of the first of them.  An octet that leads no character has none. -/
structure Lead where
  /-- How many octets follow. -/
  following : Nat
  low : UInt8
  high : UInt8
  /-- The part of the character number that the lead octet holds. -/
  value : Nat

/-- The lead octets of characters of two, three and four octets. -/
def leadOf (b : UInt8) : Option Lead :=
  if 0xC2 ≤ b ∧ b ≤ 0xDF then some ⟨1, 0x80, 0xBF, b.toNat - 0xC0⟩
  else if b = 0xE0 then some ⟨2, 0xA0, 0xBF, 0⟩
  else if b = 0xED then some ⟨2, 0x80, 0x9F, 13⟩
  else if 0xE1 ≤ b ∧ b ≤ 0xEF then some ⟨2, 0x80, 0xBF, b.toNat - 0xE0⟩
  else if b = 0xF0 then some ⟨3, 0x90, 0xBF, 0⟩
  else if 0xF1 ≤ b ∧ b ≤ 0xF3 then some ⟨3, 0x80, 0xBF, b.toNat - 0xF0⟩
  else if b = 0xF4 then some ⟨3, 0x80, 0x8F, 4⟩
  else none

/-- Where the decoder stands: between characters, or inside one with the octets
still owed, the range of the next one and the number read so far. -/
inductive Pending where
  | between
  | inside (owed : Nat) (low high : UInt8) (value : Nat)

/-- The decoder's answer to the octet after a position between characters. -/
def startChar (b : UInt8) : List Char × Pending :=
  if b < 0x80 then ([Char.ofNat b.toNat], .between)
  else
    match leadOf b with
    | some lead => ([], .inside lead.following lead.low lead.high lead.value)
    | none => ([replacement], .between)

/-- The decoder's answer to one octet: the characters it completes, and where it
then stands. -/
def stepLossy (state : Pending) (b : UInt8) : List Char × Pending :=
  match state with
  | .between => startChar b
  | .inside owed low high value =>
    if low ≤ b ∧ b ≤ high then
      let value := value * 64 + (b.toNat - 0x80)
      if owed ≤ 1 then ([Char.ofNat value], .between)
      else ([], .inside (owed - 1) 0x80 0xBF value)
    else
      let (out, next) := startChar b
      (replacement :: out, next)

/-- The characters of an octet sequence, with U+FFFD for what is no character. -/
def lossyFrom (state : Pending) : List UInt8 → List Char
  | [] =>
    match state with
    | .between => []
    | .inside .. => [replacement]
  | b :: rest =>
    let (out, next) := stepLossy state b
    out ++ lossyFrom next rest

def readText (bytes : ByteArray) : Option String :=
  String.fromUTF8? bytes

def readLossy (bytes : ByteArray) : String :=
  match readText bytes with
  | some s => s
  | none => String.ofList (lossyFrom .between bytes.toList)

def octets (s : String) : ByteArray :=
  s.toUTF8

/-- A well-formed sequence is read as it stands. -/
theorem readLossy_of_readText {bytes : ByteArray} {s : String} (h : readText bytes = some s) :
    readLossy bytes = s := by
  simp [readLossy, h]

end ContainerLaunch.Text
