import Mathlib.Data.List.Basic
import ContainerLaunch.Octets
/-!
# Numbers in octets

A number that was written into a file is read back from there.  Signed numbers are written
in two's complement, and the octets at any place of a file write exactly one number of their
width.
-/

namespace ContainerLaunch.Octets

variable {b : ByteArray} {start width : Nat}

/-- The octets that write a signed number in two's complement. -/
def twosComplement (width : Nat) (n : Int) : List UInt8 :=
  writing width (n % range width).toNat

theorem range_pos (width : Nat) : 0 < range width :=
  Nat.pow_pos (by decide)

/-- A text stands somewhere exactly if its first octet does and the rest stands behind it. -/
theorem holds_cons {x : UInt8} {text : List UInt8} :
    holds b start (x :: text) = true ↔
      start < b.size ∧ octet b start = x ∧ holds b (start + 1) text = true := by
  have hshift : (List.range text.length).map (fun i => octet b (start + (i + 1))) =
      (List.range text.length).map fun i => octet b (start + 1 + i) := by
    apply List.map_congr_left
    intro i _
    congr 1
    omega
  simp only [holds, List.length_cons, List.range_succ_eq_map, List.map_cons, List.map_map,
    Bool.and_eq_true, decide_eq_true_eq, beq_iff_eq, List.cons.injEq, Nat.add_zero]
  rw [show (fun i => octet b (start + i)) ∘ Nat.succ = fun i => octet b (start + (i + 1)) from rfl,
    hshift]
  constructor
  · rintro ⟨hroom, hfirst, hrest⟩
    exact ⟨by omega, hfirst, by omega, hrest⟩
  · rintro ⟨hroom, hfirst, hmore, hrest⟩
    exact ⟨by omega, hfirst, hrest⟩

theorem octet_eq_getElem {i : Nat} (hi : i < b.data.toList.length) :
    octet b i = b.data.toList[i] := by
  have hsize : i < b.size := by simpa using hi
  rw [octet, dif_pos hsize]
  rfl

/-- A text stands where the octets go on with it. -/
theorem holds_of_isPrefix {text : List UInt8} (hstart : start ≤ b.size)
    (hstands : text <+: b.data.toList.drop start) : holds b start text = true := by
  induction text generalizing start with
  | nil => simpa [holds] using hstart
  | cons x rest ih =>
      have hroom : start < b.data.toList.length := by
        have hlength := hstands.length_le
        rw [List.length_drop, List.length_cons] at hlength
        omega
      rw [List.drop_eq_getElem_cons hroom, List.cons_prefix_cons] at hstands
      have hsize : start < b.size := by simpa using hroom
      exact holds_cons.mpr ⟨hsize, (octet_eq_getElem hroom).trans hstands.1.symm,
        ih hsize hstands.2⟩

/-- The octets at a place write one number of their width. -/
theorem holds_writing_iff {n : Nat} (hn : n < range width) :
    holds b start (writing width n) = true ↔
      start + width ≤ b.size ∧ unsigned b start width = n := by
  induction width generalizing start n with
  | zero =>
      have hzero : n = 0 := Nat.lt_one_iff.mp hn
      have hnone : holds b start [] = true ↔ start ≤ b.size := by simp [holds]
      rw [writing, hnone, unsigned, hzero]
      exact (and_iff_left rfl).symm
  | succ width ih =>
      have hdiv : n / 256 < range width := Nat.div_lt_of_lt_mul (by rwa [Nat.mul_comm])
      have hoctet : (octet b start).toNat < 256 := (octet b start).toNat_lt
      have hfirst : octet b start = UInt8.ofNat n ↔ (octet b start).toNat = n % 256 := by
        rw [← UInt8.toNat_inj, UInt8.toNat_ofNat']
      rw [writing, holds_cons, ih hdiv, hfirst, unsigned]
      constructor
      · rintro ⟨-, hlow, hroom, hhigh⟩
        exact ⟨by omega, by omega⟩
      · rintro ⟨hroom, hvalue⟩
        exact ⟨by omega, by omega, by omega, by omega⟩

/-- The octets at a place write one signed number of their width. -/
theorem holds_twosComplement_iff {n : Int} (hlow : -range width ≤ 2 * n)
    (hhigh : 2 * n < range width) :
    holds b start (twosComplement width n) = true ↔
      start + width ≤ b.size ∧ signed b start width = n := by
  have hpos : (0 : Int) < range width := Int.natCast_pos.mpr (range_pos width)
  have hrest : n % range width = if 0 ≤ n then n else n + range width := by
    split
    · next hn => exact Int.emod_eq_of_lt hn (by omega)
    · next hn =>
      rw [← Int.add_emod_right]
      exact Int.emod_eq_of_lt (by omega) (by omega)
  have hlt : (n % range width).toNat < range width := by
    have := Int.emod_lt_of_pos n hpos
    omega
  have hunsigned := unsigned_lt b start width
  rw [twosComplement, holds_writing_iff hlt, hrest, signed]
  refine and_congr_right fun _ => ?_
  split <;> split <;> omega

/-- A signed number that is read is in the range of its width. -/
theorem signed_bounds (b : ByteArray) (start width : Nat) :
    -range width ≤ 2 * signed b start width ∧ 2 * signed b start width < range width := by
  have hunsigned := unsigned_lt b start width
  unfold signed
  dsimp only
  split <;> constructor <;> omega

/-! ## The widths of machine numbers -/

theorem range_four : range 4 = 4294967296 := rfl

theorem range_eight : range 8 = 18446744073709551616 := rfl

theorem signed_of_int32 {n : Int32} (hn : holds b start (twosComplement 4 n.toInt) = true) :
    signed b start 4 = n.toInt := by
  have hlow := n.le_toInt
  have hhigh := n.toInt_lt
  exact ((holds_twosComplement_iff (by rw [range_four]; omega) (by rw [range_four]; omega)).mp hn).2

theorem signed_of_int64 {n : Int64} (hn : holds b start (twosComplement 8 n.toInt) = true) :
    signed b start 8 = n.toInt := by
  have hlow := n.le_toInt
  have hhigh := n.toInt_lt
  exact ((holds_twosComplement_iff (by rw [range_eight]; omega)
    (by rw [range_eight]; omega)).mp hn).2

/-- Wherever there is room for one, there is a signed number. -/
theorem exists_int64 (hroom : start + 8 ≤ b.size) :
    ∃ n : Int64, holds b start (twosComplement 8 n.toInt) = true := by
  obtain ⟨hlow, hhigh⟩ := signed_bounds b start 8
  have hn : (Int64.ofInt (signed b start 8)).toInt = signed b start 8 := by
    rw [range_eight] at hlow hhigh
    exact Int64.toInt_ofInt_of_le (by omega) (by omega)
  refine ⟨Int64.ofInt (signed b start 8), ?_⟩
  rw [hn]
  exact (holds_twosComplement_iff hlow hhigh).mpr ⟨hroom, rfl⟩

end ContainerLaunch.Octets
