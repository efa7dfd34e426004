import ContainerLaunch.Text.Pieces
/-!
# Numbers and spans of time in a text

Reading a bounded decimal number, and writing one.  A number is an optional
sign and at least one ASCII digit; leading zeros are allowed, anything else is
refused, and so is a value outside the range asked for.

A span of time is written in the largest unit of s, ms, µs and ns that it
reaches, with as many decimals as it needs and no more.
-/

namespace ContainerLaunch

namespace Text

def digitValue (c : Char) : Option Nat :=
  if '0' ≤ c ∧ c ≤ '9' then some (c.toNat - '0'.toNat) else none

/-- The value of a run of digits after those whose value is `acc`. -/
def digitsFrom (acc : Nat) : List Char → Option Nat
  | [] => some acc
  | c :: rest =>
    match digitValue c with
    | some d => digitsFrom (acc * 10 + d) rest
    | none => none

/-- The value of a non-empty run of digits. -/
def natOfDigits (cs : List Char) : Option Nat :=
  if cs.isEmpty then none else digitsFrom 0 cs

/-- A value that lies below a bound. -/
def below (bound : Nat) (n : Nat) : Option Nat :=
  if n < bound then some n else none

/-- The unsigned number below `bound` that a list of characters writes. -/
def natOfChars (bound : Nat) (cs : List Char) : Option Nat :=
  match cs with
  | '+' :: rest => natOfDigits rest >>= below bound
  | cs => natOfDigits cs >>= below bound

/-- The unsigned 32-bit number that a text writes. -/
def u32? (s : String) : Option UInt32 :=
  (natOfChars UInt32.size s.toList).map UInt32.ofNat

/-- The signed 32-bit number that a text writes. -/
def i32? (s : String) : Option Int32 :=
  match s.toList with
  | '-' :: rest => (natOfDigits rest >>= below (Int32.size / 2 + 1)).map fun n => Int32.ofInt (-n)
  | cs => (natOfChars (Int32.size / 2) cs).map fun n => Int32.ofInt n

/-- The decimal text of a signed 32-bit number. -/
def ofInt32 (n : Int32) : String :=
  toString n.toInt

/-- The decimal text of an unsigned 32-bit number. -/
def ofUInt32 (n : UInt32) : String :=
  toString n.toNat

theorem below_eq_some_iff {bound n m : Nat} : below bound n = some m ↔ n < bound ∧ n = m := by
  simp [below]

end Text

/-! ## Spans of time -/

/-- A span of time in nanoseconds. -/
structure Duration where
  nanoseconds : Nat
  deriving DecidableEq, Repr, Inhabited

namespace Duration

def ofSeconds (n : Nat) : Duration := ⟨n * 1000000000⟩

def ofMilliseconds (n : Nat) : Duration := ⟨n * 1000000⟩

/-- A span in a unit of 10 ^ `places` nanoseconds: the whole units, and the rest
as decimals without trailing zeros. -/
def inUnit (places : Nat) (name : String) (n : Nat) : String :=
  let unit := Nat.pow 10 places
  let whole := n / unit
  let rest := n % unit
  if rest = 0 then toString whole ++ name
  else
    let digits := (Nat.toDigits 10 (unit + rest)).drop 1
    let decimals := (digits.reverse.dropWhile (· == '0')).reverse
    toString whole ++ "." ++ String.ofList decimals ++ name

/-- The writing of a span of time. -/
def text (d : Duration) : String :=
  if 1000000000 ≤ d.nanoseconds then inUnit 9 "s" d.nanoseconds
  else if 1000000 ≤ d.nanoseconds then inUnit 6 "ms" d.nanoseconds
  else if 1000 ≤ d.nanoseconds then inUnit 3 "µs" d.nanoseconds
  else inUnit 0 "ns" d.nanoseconds

end Duration
end ContainerLaunch
