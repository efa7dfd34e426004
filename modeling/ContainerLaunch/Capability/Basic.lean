import ContainerLaunch.Text.Pieces
/-!
# Capabilities

The capabilities of the kernel, numbered from zero, and sets of them held in one
word.  Bit `i` of the word says whether the capability with number `i` belongs to
the set; every operation on sets is described by what it does to membership.
-/

namespace ContainerLaunch

/-- A capability, by its number. -/
structure Capability where
  index : Fin 41
  deriving DecidableEq, Repr

namespace Capability

/-- The names of the capabilities in order of their numbers. -/
def canonicalNames : List String := [
  "CAP_CHOWN", "CAP_DAC_OVERRIDE", "CAP_DAC_READ_SEARCH", "CAP_FOWNER", "CAP_FSETID",
  "CAP_KILL", "CAP_SETGID", "CAP_SETUID", "CAP_SETPCAP", "CAP_LINUX_IMMUTABLE",
  "CAP_NET_BIND_SERVICE", "CAP_NET_BROADCAST", "CAP_NET_ADMIN", "CAP_NET_RAW", "CAP_IPC_LOCK",
  "CAP_IPC_OWNER", "CAP_SYS_MODULE", "CAP_SYS_RAWIO", "CAP_SYS_CHROOT", "CAP_SYS_PTRACE",
  "CAP_SYS_PACCT", "CAP_SYS_ADMIN", "CAP_SYS_BOOT", "CAP_SYS_NICE", "CAP_SYS_RESOURCE",
  "CAP_SYS_TIME", "CAP_SYS_TTY_CONFIG", "CAP_MKNOD", "CAP_LEASE", "CAP_AUDIT_WRITE",
  "CAP_AUDIT_CONTROL", "CAP_SETFCAP", "CAP_MAC_OVERRIDE", "CAP_MAC_ADMIN", "CAP_SYSLOG",
  "CAP_WAKE_ALARM", "CAP_BLOCK_SUSPEND", "CAP_AUDIT_READ", "CAP_PERFMON", "CAP_BPF",
  "CAP_CHECKPOINT_RESTORE"]

theorem canonicalNames_length : canonicalNames.length = 41 := rfl

def name (c : Capability) : String :=
  canonicalNames.get ⟨c.index.val, by rw [canonicalNames_length]; exact c.index.isLt⟩

/-- Every capability, in order of the numbers. -/
def all : List Capability :=
  (List.finRange 41).map Capability.mk

def ofName? (s : String) : Option Capability :=
  all.find? fun c => c.name == s

/-- The word in which only the bit of a capability is set. -/
def mask (c : Capability) : UInt64 :=
  1 <<< UInt64.ofNat c.index.val

theorem mem_all (c : Capability) : c ∈ all := by
  simp [all]

/-- A capability is found under its own name. -/
theorem ofName?_name (c : Capability) : ofName? c.name = some c := by
  obtain ⟨i⟩ := c
  revert i
  decide +kernel

/-- What is found under a name has that name. -/
theorem name_of_ofName? {s : String} {c : Capability} (h : ofName? s = some c) : c.name = s := by
  have := List.find?_some h
  simpa using this

/-- Bit `j` of the word of a capability. -/
theorem testBit_mask (c : Capability) (j : Nat) :
    c.mask.toNat.testBit j = decide (j = c.index.val) := by
  obtain ⟨i⟩ := c
  have hi : i.val < 64 := by omega
  have : (mask ⟨i⟩).toNat = 2 ^ i.val := by
    revert i
    decide +kernel
  rw [this, Nat.testBit_two_pow]
  simp [eq_comm]

end Capability

/-- A set of capabilities, one bit for each. -/
structure CapabilitySet where
  bits : UInt64
  deriving DecidableEq, Repr

namespace CapabilitySet

def empty : CapabilitySet := ⟨0⟩

instance : Inhabited CapabilitySet := ⟨empty⟩

/-- Whether a capability belongs to a set. -/
def contains (s : CapabilitySet) (c : Capability) : Bool :=
  s.bits.toNat.testBit c.index.val

instance : Membership Capability CapabilitySet := ⟨fun s c => s.contains c = true⟩

instance (c : Capability) (s : CapabilitySet) : Decidable (c ∈ s) :=
  inferInstanceAs (Decidable (s.contains c = true))

/-- A set with a capability put in. -/
def insert (s : CapabilitySet) (c : Capability) : CapabilitySet :=
  ⟨s.bits ||| c.mask⟩

/-- A set with a capability taken out. -/
def erase (s : CapabilitySet) (c : Capability) : CapabilitySet :=
  ⟨s.bits &&& ~~~c.mask⟩

def union (s t : CapabilitySet) : CapabilitySet :=
  ⟨s.bits ||| t.bits⟩

def inter (s t : CapabilitySet) : CapabilitySet :=
  ⟨s.bits &&& t.bits⟩

/-- What belongs to the first set and not to the second. -/
def diff (s t : CapabilitySet) : CapabilitySet :=
  ⟨s.bits &&& ~~~t.bits⟩

/-- Whether no bit is set, those without a capability included. -/
def isEmpty (s : CapabilitySet) : Bool :=
  s.bits == 0

/-- Whether every bit of the first set is a bit of the second. -/
def isSubset (s t : CapabilitySet) : Bool :=
  s.bits &&& ~~~t.bits == 0

/-- The set of a list of capabilities. -/
def ofList (cs : List Capability) : CapabilitySet :=
  cs.foldl insert empty

def full : CapabilitySet :=
  ofList Capability.all

/-- The capabilities of a set, in order of the numbers. -/
def toList (s : CapabilitySet) : List Capability :=
  Capability.all.filter s.contains

/-- The canonical names of the capabilities of a set. -/
def names (s : CapabilitySet) : List String :=
  s.toList.map Capability.name

theorem mem_iff {c : Capability} {s : CapabilitySet} : c ∈ s ↔ s.contains c = true := Iff.rfl

theorem not_mem_empty (c : Capability) : ¬ c ∈ empty := by
  simp [mem_iff, contains, empty]

theorem mem_union {c : Capability} {s t : CapabilitySet} : c ∈ s.union t ↔ c ∈ s ∨ c ∈ t := by
  simp [mem_iff, contains, union]

/-- A union that is taken step by step holds what it started from and what was added. -/
theorem mem_foldl_union {α : Type} {c : Capability} {f : α → CapabilitySet} {xs : List α}
    {s : CapabilitySet} :
    c ∈ xs.foldl (fun s x => s.union (f x)) s ↔ c ∈ s ∨ ∃ x ∈ xs, c ∈ f x := by
  induction xs generalizing s with
  | nil => simp
  | cons x rest ih =>
    rw [List.foldl_cons, ih, mem_union, or_assoc]
    simp only [List.mem_cons, exists_eq_or_imp]

theorem mem_inter {c : Capability} {s t : CapabilitySet} : c ∈ s.inter t ↔ c ∈ s ∧ c ∈ t := by
  simp [mem_iff, contains, inter]

/-- A bit of a complemented word. -/
theorem testBit_not (w : UInt64) {i : Nat} (h : i < 64) :
    (~~~w).toNat.testBit i = !w.toNat.testBit i := by
  rw [← UInt64.toNat_toBitVec, ← UInt64.toNat_toBitVec, BitVec.testBit_toNat,
    BitVec.testBit_toNat, UInt64.toBitVec_not, BitVec.getLsbD_not]
  simp [h]

theorem mem_diff {c : Capability} {s t : CapabilitySet} : c ∈ s.diff t ↔ c ∈ s ∧ ¬ c ∈ t := by
  have h : c.index.val < 64 := by omega
  simp only [mem_iff, contains, diff, UInt64.toNat_and, Nat.testBit_and, testBit_not _ h,
    Bool.and_eq_true, Bool.not_eq_true', Bool.not_eq_true]

theorem mem_insert {c d : Capability} {s : CapabilitySet} : d ∈ s.insert c ↔ d = c ∨ d ∈ s := by
  obtain ⟨i⟩ := c
  obtain ⟨j⟩ := d
  simp only [mem_iff, contains, insert, UInt64.toNat_or, Nat.testBit_or, Capability.testBit_mask,
    Bool.or_eq_true, decide_eq_true_eq, Capability.mk.injEq, Fin.ext_iff]
  exact Or.comm

theorem mem_toList {c : Capability} {s : CapabilitySet} : c ∈ s.toList ↔ c ∈ s := by
  simp [toList, mem_iff, Capability.mem_all]

theorem mem_foldl_insert {c : Capability} {cs : List Capability} {s : CapabilitySet} :
    c ∈ cs.foldl insert s ↔ c ∈ cs ∨ c ∈ s := by
  induction cs generalizing s with
  | nil => simp
  | cons d rest ih =>
    rw [List.foldl_cons, ih, mem_insert, List.mem_cons]
    grind

theorem mem_ofList {c : Capability} {cs : List Capability} : c ∈ ofList cs ↔ c ∈ cs := by
  simp [ofList, mem_foldl_insert, not_mem_empty]

theorem mem_full (c : Capability) : c ∈ full :=
  mem_ofList.2 (Capability.mem_all c)

end CapabilitySet
end ContainerLaunch
