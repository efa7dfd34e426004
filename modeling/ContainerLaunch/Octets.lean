/-!
# Octets at offsets

Reading numbers out of a sequence of octets.  Every access goes through `octet`,
which is zero beyond the end, so nothing here depends on a bound that was
checked elsewhere.
-/

namespace ContainerLaunch.Octets

/-- Two sequences are equal if their octets are. -/
instance (priority := 10000) decidableEq : DecidableEq ByteArray := fun a b =>
  decidable_of_iff (a.data = b.data) ⟨ByteArray.ext, congrArg ByteArray.data⟩

/-- The octet at an offset, zero beyond the end. -/
def octet (b : ByteArray) (i : Nat) : UInt8 :=
  if h : i < b.size then b[i] else 0

/-- The number that `n` octets from an offset on write, least octet first. -/
def unsigned (b : ByteArray) (start : Nat) : Nat → Nat
  | 0 => 0
  | n + 1 => (octet b start).toNat + 256 * unsigned b (start + 1) n

def range (n : Nat) : Nat := Nat.pow 256 n

def signed (b : ByteArray) (start n : Nat) : Int :=
  let value := unsigned b start n
  if 2 * value < range n then value else (value : Int) - range n

/-- Whether some text stands at an offset. -/
def holds (b : ByteArray) (start : Nat) (text : List UInt8) : Bool :=
  start + text.length ≤ b.size &&
    (List.range text.length).map (fun i => octet b (start + i)) == text

/-- The `width` octets that write a number, least octet first. -/
def writing : Nat → Nat → List UInt8
  | 0, _ => []
  | width + 1, n => UInt8.ofNat n :: writing width (n / 256)

/-- Octets and as many zeros after them as are missing to `width`. -/
def padded (b : ByteArray) (width : Nat) : ByteArray :=
  (width - b.size).fold (fun _ _ acc => acc.push 0) b

/-! A buffer is given by the octets at its start; from their end on it holds zeros. -/

/-- A buffer of which every octet is set to zero. -/
def cleared (_buffer : ByteArray) : ByteArray := .empty

/-- A buffer whose first octets are replaced. -/
def overwritten (buffer octets : ByteArray) : ByteArray :=
  octets ++ buffer.extract octets.size buffer.size

/-- A buffer that is cleared before octets are put at its start. -/
def rewritten (buffer octets : ByteArray) : ByteArray :=
  overwritten (cleared buffer) octets

/-- The octets before the first zero. -/
def beforeZero (b : ByteArray) : ByteArray :=
  ByteArray.mk (b.toList.takeWhile (· != 0)).toArray

/-- The maximal runs of octets other than zero, each with its offset; `run` holds
the one being read, last octet first. -/
def runsFrom (at_ : Nat) (run : List UInt8) : List UInt8 → List (Nat × List UInt8)
  | [] => if run.isEmpty then [] else [(at_ - run.length, run.reverse)]
  | 0 :: rest =>
    if run.isEmpty then runsFrom (at_ + 1) [] rest
    else (at_ - run.length, run.reverse) :: runsFrom (at_ + 1) [] rest
  | octet :: rest => runsFrom (at_ + 1) (octet :: run) rest

/-- The maximal runs of octets other than zero. -/
def runs (b : ByteArray) : List (Nat × List UInt8) :=
  runsFrom 0 [] b.toList

/-- Nothing of what a buffer held is left in it after it was rewritten. -/
@[simp] theorem rewritten_eq (buffer octets : ByteArray) : rewritten buffer octets = octets := by
  have hempty : (cleared buffer).extract octets.size (cleared buffer).size = .empty := by
    simp [cleared, ByteArray.extract_eq_empty_iff]
  rw [rewritten, overwritten, hempty, ByteArray.append_empty]

/-- The number that octets write is below the bound that their count gives. -/
theorem unsigned_lt (b : ByteArray) (start n : Nat) : unsigned b start n < range n := by
  induction n generalizing start with
  | zero => simp [unsigned, range]
  | succ n ih =>
    have h := ih (start + 1)
    have ho : (octet b start).toNat < 256 := (octet b start).toNat_lt
    have hr : range (n + 1) = range n * 256 := rfl
    simp only [unsigned, hr]
    omega

end ContainerLaunch.Octets
