import Mathlib.Data.List.Forall2
import ContainerLaunch.Image.Sif
import ContainerLaunch.Proofs.Actions
import ContainerLaunch.Proofs.OctetNumbers
/-!
# Descriptor tables

The descriptors of a SIF file are records of 585 octets, one after the other, and the header
says how many there are and where the first one stands.  Whatever else the octets around
them are, every table that is laid out so is read as it was written: a partition for each
partition descriptor in use, in order.  Reading fails only where there is no such table.
-/

namespace ContainerLaunch

/-- A descriptor as it is laid out in a file; it is in use if its mark is not zero. -/
structure SifRecord where
  kind : Int32
  mark : UInt8
  offset : Int64
  size : Int64
  fsCode : Int32
  roleCode : Int32
  deriving DecidableEq

namespace SifRecord

variable {b : ByteArray} {start : Nat} {r : SifRecord} {rs : List SifRecord}

/-- The fields of a record, each with the octet of the record at which it starts. -/
def fields (r : SifRecord) : List (Nat × List UInt8) := [
  (0, Octets.twosComplement 4 r.kind.toInt),
  (4, [r.mark]),
  (17, Octets.twosComplement 8 r.offset.toInt),
  (25, Octets.twosComplement 8 r.size.toInt),
  (201, Octets.twosComplement 4 r.fsCode.toInt),
  (205, Octets.twosComplement 4 r.roleCode.toInt)]

/-- A record stands at a place of a file. -/
structure StandsAt (r : SifRecord) (b : ByteArray) (start : Nat) : Prop where
  complete : start + 585 ≤ b.size
  field : ∀ f ∈ r.fields, Octets.holds b (start + f.1) f.2 = true

/-- Several records stand one after the other from a place on. -/
def TableAt (b : ByteArray) : Nat → List SifRecord → Prop
  | _, [] => True
  | start, r :: rs => r.StandsAt b start ∧ TableAt b (start + 585) rs

/-- The header of a file says how many records there are and where the first one stands. -/
structure Header (b : ByteArray) (total start : Int64) : Prop where
  complete : 128 ≤ b.size
  total_written : Octets.holds b 88 (Octets.twosComplement 8 total.toInt) = true
  start_written : Octets.holds b 96 (Octets.twosComplement 8 start.toInt) = true

/-- A record of a partition that is in use. -/
def IsPartition (r : SifRecord) : Prop := r.mark ≠ 0 ∧ r.kind = 0x4004

instance (r : SifRecord) : Decidable r.IsPartition :=
  inferInstanceAs (Decidable (_ ∧ _))

/-- A partition is what a record says: a code that is not known stands for something else,
and an offset or a size below zero is read as zero. -/
structure Describes (r : SifRecord) (p : Partition) : Prop where
  squashfs : p.fs = .squashfs ↔ r.fsCode = 1
  ext3 : p.fs = .ext3 ↔ r.fsCode = 2
  encrypted : p.fs = .encrypted ↔ r.fsCode = 5
  other_fs : p.fs = .other ↔ r.fsCode ≠ 1 ∧ r.fsCode ≠ 2 ∧ r.fsCode ≠ 5
  system : p.role = .system ↔ r.roleCode = 1
  primary : p.role = .primary ↔ r.roleCode = 2
  data : p.role = .data ↔ r.roleCode = 3
  overlay : p.role = .overlay ↔ r.roleCode = 4
  other_role : p.role = .other ↔
    r.roleCode ≠ 1 ∧ r.roleCode ≠ 2 ∧ r.roleCode ≠ 3 ∧ r.roleCode ≠ 4
  offset_eq : (p.offset.toNat : Int) = max 0 r.offset.toInt
  size_eq : (p.size.toNat : Int) = max 0 r.size.toInt

/-! ## Reading a record -/

/-- What a record says. -/
def descriptor (r : SifRecord) : SifDescriptor where
  used := r.mark != 0
  kind := r.kind.toInt
  offset := r.offset.toInt
  size := r.size.toInt
  fsCode := r.fsCode.toInt
  roleCode := r.roleCode.toInt

theorem at_of_standsAt (hr : r.StandsAt b start) : SifDescriptor.at_ b start = r.descriptor := by
  have hfield := hr.field
  simp only [fields, List.forall_mem_cons] at hfield
  obtain ⟨hkind, hmark, hoffset, hsize, hfs, hrole, -⟩ := hfield
  obtain ⟨-, hoctet, -⟩ := Octets.holds_cons.mp hmark
  rw [Nat.add_zero] at hkind
  rw [SifDescriptor.at_, descriptor, hoctet, Octets.signed_of_int64 hoffset,
    Octets.signed_of_int64 hsize, Octets.signed_of_int32 hfs, Octets.signed_of_int32 hrole,
    Octets.signed_of_int32 hkind]

theorem descriptors_succ (b : ByteArray) (start count : Nat) :
    SifContents.descriptors b start (count + 1) =
      SifDescriptor.at_ b start :: SifContents.descriptors b (start + 585) count := by
  simp only [SifContents.descriptors, List.range_succ_eq_map, List.map_cons, List.map_map,
    Nat.zero_mul, Nat.add_zero, List.cons.injEq, true_and]
  apply List.map_congr_left
  intro i _
  change SifDescriptor.at_ b (start + (i + 1) * 585) = SifDescriptor.at_ b (start + 585 + i * 585)
  congr 1
  omega

/-- A table is read as its records say. -/
theorem descriptors_of_tableAt (htable : TableAt b start rs) :
    SifContents.descriptors b start rs.length = rs.map descriptor := by
  induction rs generalizing start with
  | nil => rfl
  | cons r rest ih =>
      rw [List.length_cons, descriptors_succ, at_of_standsAt htable.1, ih htable.2]
      rfl

/-- A table ends where the file does, at the latest. -/
theorem end_of_tableAt (htable : TableAt b start rs) (hne : rs ≠ []) :
    start + rs.length * 585 ≤ b.size := by
  induction rs generalizing start with
  | nil => exact absurd rfl hne
  | cons r rest ih =>
      cases rest with
      | nil => simpa using htable.1.complete
      | cons next more =>
          have hend := ih htable.2 (List.cons_ne_nil _ _)
          simp only [List.length_cons] at hend ⊢
          omega

/-! ## What the records say together -/

theorem fsOf_cases (n : Int) :
    (SifDescriptor.fsOf n = .squashfs ↔ n = 1) ∧ (SifDescriptor.fsOf n = .ext3 ↔ n = 2) ∧
      (SifDescriptor.fsOf n = .encrypted ↔ n = 5) ∧
      (SifDescriptor.fsOf n = .other ↔ n ≠ 1 ∧ n ≠ 2 ∧ n ≠ 5) := by
  unfold SifDescriptor.fsOf
  split <;> simp_all

theorem roleOf_cases (n : Int) :
    (SifDescriptor.roleOf n = .system ↔ n = 1) ∧ (SifDescriptor.roleOf n = .primary ↔ n = 2) ∧
      (SifDescriptor.roleOf n = .data ↔ n = 3) ∧ (SifDescriptor.roleOf n = .overlay ↔ n = 4) ∧
      (SifDescriptor.roleOf n = .other ↔ n ≠ 1 ∧ n ≠ 2 ∧ n ≠ 3 ∧ n ≠ 4) := by
  unfold SifDescriptor.roleOf
  split <;> simp_all

theorem toNat_offset (n : Int64) : ((UInt64.ofNat n.toInt.toNat).toNat : Int) = max 0 n.toInt := by
  have hhigh := n.toInt_lt
  rw [UInt64.toNat_ofNat_of_lt' (by rw [UInt64.size]; omega)]
  omega

theorem isPartition_iff :
    (r.descriptor.used && r.descriptor.kind == SifDescriptor.partitionKind) = true ↔
      r.IsPartition := by
  have hkind : r.kind.toInt = SifDescriptor.partitionKind ↔ r.kind = 0x4004 :=
    Int32.toInt_inj (y := 0x4004)
  simp only [descriptor, IsPartition, Bool.and_eq_true, bne_iff_ne, beq_iff_eq, hkind]

theorem isOciIndex_iff :
    r.descriptor.isOciIndex = true ↔ r.mark ≠ 0 ∧ r.kind = 0x400a := by
  have hkind : r.kind.toInt = SifDescriptor.ociIndexKind ↔ r.kind = 0x400a :=
    Int32.toInt_inj (y := 0x400a)
  simp only [descriptor, SifDescriptor.isOciIndex, Bool.and_eq_true, bne_iff_ne, beq_iff_eq, hkind]

/-- What a record of a partition in use stands for. -/
theorem exists_describes (hr : r.IsPartition) :
    ∃ p, r.descriptor.partition? = some p ∧ r.Describes p := by
  refine ⟨_, if_pos (isPartition_iff.mpr hr), ?_⟩
  have hcode : ∀ n k : Int32, n.toInt = k.toInt ↔ n = k := fun _ _ => Int32.toInt_inj
  obtain ⟨hsquashfs, hext3, hencrypted, hother⟩ := fsOf_cases r.fsCode.toInt
  obtain ⟨hsystem, hprimary, hdata, hoverlay, hnone⟩ := roleOf_cases r.roleCode.toInt
  exact
    { squashfs := hsquashfs.trans (hcode _ 1)
      ext3 := hext3.trans (hcode _ 2)
      encrypted := hencrypted.trans (hcode _ 5)
      other_fs := hother.trans
        (and_congr (hcode _ 1).not (and_congr (hcode _ 2).not (hcode _ 5).not))
      system := hsystem.trans (hcode _ 1)
      primary := hprimary.trans (hcode _ 2)
      data := hdata.trans (hcode _ 3)
      overlay := hoverlay.trans (hcode _ 4)
      other_role := hnone.trans (and_congr (hcode _ 1).not
        (and_congr (hcode _ 2).not (and_congr (hcode _ 3).not (hcode _ 4).not)))
      offset_eq := toNat_offset r.offset
      size_eq := toNat_offset r.size }

/-- The partitions are those of the records that describe one, in order. -/
theorem partitions_describe (rs : List SifRecord) :
    List.Forall₂ Describes (rs.filter IsPartition)
      (SifContents.ofDescriptors (rs.map descriptor)).partitions := by
  induction rs with
  | nil => exact .nil
  | cons r rest ih =>
      simp only [SifContents.ofDescriptors, List.map_cons] at ih ⊢
      by_cases hr : r.IsPartition
      · obtain ⟨p, hp, hdescribes⟩ := exists_describes hr
        rw [List.filter_cons_of_pos (by simpa using hr), List.filterMap_cons_some hp]
        exact .cons hdescribes ih
      · have hp : r.descriptor.partition? = none :=
          if_neg fun hused => hr (isPartition_iff.mp hused)
        rw [List.filter_cons_of_neg (by simpa using hr), List.filterMap_cons_none hp]
        exact ih

theorem oci_iff (rs : List SifRecord) :
    (SifContents.ofDescriptors (rs.map descriptor)).oci = true ↔
      ∃ r ∈ rs, r.mark ≠ 0 ∧ r.kind = 0x400a := by
  simp only [SifContents.ofDescriptors, List.any_map, List.any_eq_true, Function.comp_apply,
    isOciIndex_iff]

end SifRecord

namespace SifContents

variable {b : ByteArray} {contents : SifContents}

/-! ## Reading a table -/

/-- The table that a header announces can be read: its length and its place make sense, and
it ends where the file does, at the latest. -/
structure Readable (b : ByteArray) (total start : Int64) : Prop where
  total_nonneg : 0 ≤ total.toInt
  total_le : total.toInt ≤ 4096
  start_nonneg : 0 ≤ start.toInt
  within : total.toInt = 0 ∨ start.toInt + total.toInt * 585 ≤ b.size

/-- No file is longer than a position in it can say. -/
theorem readable_ok (hlong : (b.size : Int) ≤ Int64.maxValue.toInt) (start size : Nat) :
    readable b start size = .ok () ↔ size = 0 ∨ start + size ≤ b.size := by
  unfold readable
  split
  · next hnone => simp [hnone]
  · next hsome =>
    split
    · next hfar => exact iff_of_false nofun (by omega)
    · split
      · next hend => exact iff_of_false nofun (by omega)
      · next hwithin => exact iff_of_true rfl (by omega)

theorem exists_header (hcomplete : 128 ≤ b.size) :
    ∃ total start, SifRecord.Header b total start := by
  obtain ⟨total, htotal⟩ : ∃ n : Int64,
      Octets.holds b 88 (Octets.twosComplement 8 n.toInt) = true :=
    Octets.exists_int64 (by omega)
  obtain ⟨start, hstart⟩ : ∃ n : Int64,
      Octets.holds b 96 (Octets.twosComplement 8 n.toInt) = true :=
    Octets.exists_int64 (by omega)
  exact ⟨total, start, hcomplete, htotal, hstart⟩

/-- A file with a header is read exactly if the table that it announces can be. -/
theorem inspect_ok_iff (hlong : (b.size : Int) ≤ Int64.maxValue.toInt) {total start : Int64}
    (hheader : SifRecord.Header b total start) :
    inspect b = .ok contents ↔ Readable b total start ∧
      ofDescriptors (descriptors b start.toInt.toNat total.toInt.toNat) = contents := by
  have hread : readable b 0 headerSize = .ok () :=
    (readable_ok hlong _ _).mpr (Or.inr (by simpa [headerSize] using hheader.complete))
  rw [inspect, hread, Octets.signed_of_int64 hheader.total_written,
    Octets.signed_of_int64 hheader.start_written]
  change (if total.toInt < 0 ∨ (maxDescriptors : Int) < total.toInt ∨ start.toInt < 0 then _
    else _) = _ ↔ _
  split
  · next hbad =>
    refine iff_of_false nofun fun hok => ?_
    have hlow := hok.1.total_nonneg
    have hhigh := hok.1.total_le
    have hstart := hok.1.start_nonneg
    simp only [maxDescriptors] at hbad
    omega
  · next hgood =>
    simp only [maxDescriptors] at hgood
    have hsize : total.toInt.toNat * SifDescriptor.octets = 0 ∨
        start.toInt.toNat + total.toInt.toNat * SifDescriptor.octets ≤ b.size ↔
          Readable b total start := by
      simp only [SifDescriptor.octets]
      constructor
      · intro hwithin
        exact ⟨by omega, by omega, by omega, by omega⟩
      · intro hok
        have hwithin := hok.within
        omega
    rw [Error.bind_eq_ok, ← hsize]
    simp only [readable_ok hlong, exists_const]
    exact and_congr_right fun _ => ⟨fun h => by cases h; rfl, fun h => by rw [h]; rfl⟩

theorem not_ok_of_short (hshort : b.size < 128) : inspect b ≠ .ok contents := by
  intro hok
  obtain ⟨_, hread, -⟩ := Error.bind_eq_ok.mp hok
  unfold readable at hread
  rw [if_neg (by decide), if_neg (by decide), if_pos (by simpa [headerSize] using hshort)] at hread
  cases hread

theorem exists_error_iff :
    (∃ e, inspect b = .error e) ↔ ∀ contents, inspect b ≠ .ok contents := by
  cases inspect b with
  | ok contents => simp
  | error e => simp

/-- The descriptors that a file has in the place that its header gives are read as they were
written: there is one partition for each partition descriptor in use, in order, and the file
is one of OCI exactly if a descriptor in use says so.  A file is refused exactly if its
header is incomplete, announces more than 4096 descriptors or fewer than none or a place
below zero, or announces descriptors that do not end where the file does, at the latest.
There are never more partitions than descriptors were announced. -/
theorem descriptor_table_read (hlong : (b.size : Int) ≤ Int64.maxValue.toInt) :
    (∀ (total start : Int64) (rs : List SifRecord), rs.length ≤ 4096 →
        SifRecord.Header b total start → total.toInt = rs.length → 0 ≤ start.toInt →
        SifRecord.TableAt b start.toInt.toNat rs →
        ∃ contents, inspect b = .ok contents ∧
          List.Forall₂ SifRecord.Describes (rs.filter SifRecord.IsPartition) contents.partitions ∧
          (contents.oci = true ↔ ∃ r ∈ rs, r.mark ≠ 0 ∧ r.kind = 0x400a)) ∧
      ((∃ e, inspect b = .error e) ↔
        b.size < 128 ∨ ∃ total start, SifRecord.Header b total start ∧
          (total.toInt < 0 ∨ 4096 < total.toInt ∨ start.toInt < 0 ∨
            0 < total.toInt ∧ (b.size : Int) < start.toInt + total.toInt * 585)) ∧
      ∀ contents total start, inspect b = .ok contents → SifRecord.Header b total start →
        (contents.partitions.length : Int) ≤ total.toInt := by
  refine ⟨?_, ?_, ?_⟩
  · intro total start rs hmost hheader htotal hstart htable
    have hcount : total.toInt.toNat = rs.length := by rw [htotal, Int.toNat_natCast]
    have hok : Readable b total start := by
      refine ⟨by omega, by omega, hstart, ?_⟩
      cases rs with
      | nil => exact Or.inl htotal
      | cons r rest =>
          have hend := SifRecord.end_of_tableAt htable (List.cons_ne_nil r rest)
          omega
    refine ⟨_, (inspect_ok_iff hlong hheader).mpr ⟨hok, rfl⟩, ?_⟩
    rw [hcount, SifRecord.descriptors_of_tableAt htable]
    exact ⟨SifRecord.partitions_describe rs, SifRecord.oci_iff rs⟩
  · rw [exists_error_iff]
    constructor
    · intro hnever
      by_cases hshort : b.size < 128
      · exact Or.inl hshort
      · obtain ⟨total, start, hheader⟩ := exists_header (Nat.le_of_not_lt hshort)
        refine Or.inr ⟨total, start, hheader, ?_⟩
        by_contra hgood
        exact hnever _ ((inspect_ok_iff hlong hheader).mpr
          ⟨⟨by omega, by omega, by omega, by omega⟩, rfl⟩)
    · rintro (hshort | ⟨total, start, hheader, hbad⟩) contents
      · exact not_ok_of_short hshort
      · intro hok
        have hread := ((inspect_ok_iff hlong hheader).mp hok).1
        have hlow := hread.total_nonneg
        have hhigh := hread.total_le
        have hstart := hread.start_nonneg
        have hwithin := hread.within
        omega
  · intro contents total start hok hheader
    obtain ⟨hread, rfl⟩ := (inspect_ok_iff hlong hheader).mp hok
    have hlength := length_partitions_le (descriptors b start.toInt.toNat total.toInt.toNat)
    have hcount : (descriptors b start.toInt.toNat total.toInt.toNat).length =
        total.toInt.toNat := by simp [descriptors]
    have hlow := hread.total_nonneg
    rw [hcount] at hlength
    omega

/-! ## A table of three descriptors -/

/-- A record with zeros between its fields. -/
def octetsOf (r : SifRecord) : List UInt8 :=
  Octets.twosComplement 4 r.kind.toInt ++ [r.mark] ++ List.replicate 12 0 ++
    Octets.twosComplement 8 r.offset.toInt ++ Octets.twosComplement 8 r.size.toInt ++
    List.replicate 168 0 ++ Octets.twosComplement 4 r.fsCode.toInt ++
    Octets.twosComplement 4 r.roleCode.toInt ++ List.replicate 376 0

/-- A partition in use with a size below zero and an unknown purpose, one that is not in use,
and the index of an OCI image. -/
def threeRecords : List SifRecord := [
  ⟨0x4004, 1, 4096, -1, 1, 9⟩, ⟨0x4004, 0, 8192, 512, 2, 4⟩, ⟨0x400a, 255, 0, 0, 0, 0⟩]

/-- A file with three records behind its header, and something more. -/
def threeRecordsFile : ByteArray :=
  ⟨(List.replicate 88 7 ++ Octets.twosComplement 8 3 ++ Octets.twosComplement 8 130 ++
    List.replicate 26 7 ++ threeRecords.flatMap octetsOf ++ [7, 7]).toArray⟩

theorem standsAt_of_isPrefix {r : SifRecord} {start : Nat}
    (hcomplete : start + 585 ≤ b.data.toList.length)
    (hfield : ∀ f ∈ r.fields, f.1 ≤ 585 ∧ f.2 <+: b.data.toList.drop (start + f.1)) :
    r.StandsAt b start := by
  have hsize : start + 585 ≤ b.size := by simpa using hcomplete
  refine ⟨hsize, fun f hf => ?_⟩
  obtain ⟨hinside, hstands⟩ := hfield f hf
  exact Octets.holds_of_isPrefix (by omega) hstands

theorem descriptor_table_read_threeRecords :
    (threeRecordsFile.size : Int) ≤ Int64.maxValue.toInt ∧
      SifRecord.Header threeRecordsFile 3 130 ∧
      SifRecord.TableAt threeRecordsFile 130 threeRecords ∧
      ∃ contents p, inspect threeRecordsFile = .ok contents ∧ contents.partitions = [p] ∧
        p.fs = .squashfs ∧ p.role = .other ∧ p.offset.toNat = 4096 ∧ p.size.toNat = 0 ∧
        contents.oci = true := by
  have hlong : (threeRecordsFile.size : Int) ≤ Int64.maxValue.toInt := by decide +kernel
  have hheader : SifRecord.Header threeRecordsFile 3 130 :=
    ⟨by decide +kernel, by decide +kernel, by decide +kernel⟩
  have htable : SifRecord.TableAt threeRecordsFile 130 threeRecords :=
    ⟨standsAt_of_isPrefix (by decide +kernel) (by decide +kernel),
      standsAt_of_isPrefix (by decide +kernel) (by decide +kernel),
      standsAt_of_isPrefix (by decide +kernel) (by decide +kernel), trivial⟩
  obtain ⟨hread, -, -⟩ := descriptor_table_read hlong
  obtain ⟨contents, hok, hpartitions, hoci⟩ :=
    hread 3 130 threeRecords (by decide) hheader rfl (by decide) htable
  have hused : threeRecords.filter SifRecord.IsPartition = [⟨0x4004, 1, 4096, -1, 1, 9⟩] := by
    decide +kernel
  rw [hused] at hpartitions
  obtain ⟨p, _, hp, hnone, hsingle⟩ := List.forall₂_cons_left_iff.mp hpartitions
  obtain rfl := List.forall₂_nil_left_iff.mp hnone
  have hoffset : (p.offset.toNat : Int) = 4096 := hp.offset_eq
  have hsize : (p.size.toNat : Int) = 0 := hp.size_eq
  exact ⟨hlong, hheader, htable, contents, p, hok, hsingle, hp.squashfs.mpr rfl,
    hp.other_role.mpr (by decide), by omega, by omega, hoci.mpr (by decide +kernel)⟩

end SifContents
end ContainerLaunch
