import ContainerLaunch.Proofs.SetAsideRanges
/-!
# Which maps of a fake superuser can be written

The kernel takes a map if no number is in two of its ranges, in the container or on the host,
and if none of its ranges runs past the numbers of 32 bits.  In the container the ranges of a
fake superuser's maps are always apart.  On the host it is the range that was set aside that
decides, and nobody looks at it before it is chosen: the first one that is not empty is taken.
-/

namespace ContainerLaunch

/-! ## Maps that can be written -/

namespace IdMapLine

/-- Whether a number of the container is in a range. -/
def HasInside (m : IdMapLine) (n : Nat) : Prop :=
  m.containerId.toNat ≤ n ∧ n < m.containerId.toNat + m.size.toNat

/-- Whether a number of the host is in a range. -/
def HasOutside (m : IdMapLine) (n : Nat) : Prop :=
  m.hostId.toNat ≤ n ∧ n < m.hostId.toNat + m.size.toNat

/-- No number of the container is in two ranges of a map, and no range runs past the numbers
of 32 bits there. -/
structure FitsInside (ms : List IdMapLine) : Prop where
  disjoint : ms.Pairwise fun m m' => ∀ n, m.HasInside n → ¬ m'.HasInside n
  bounded : ∀ m ∈ ms, m.containerId.toNat + m.size.toNat ≤ UInt32.size

/-- The same on the host. -/
structure FitsOutside (ms : List IdMapLine) : Prop where
  disjoint : ms.Pairwise fun m m' => ∀ n, m.HasOutside n → ¬ m'.HasOutside n
  bounded : ∀ m ∈ ms, m.hostId.toNat + m.size.toNat ≤ UInt32.size

end IdMapLine

namespace SubIdRange

/-- Whether a number is in a range. -/
def Has (r : SubIdRange) (n : Nat) : Prop :=
  r.start.toNat ≤ n ∧ n < r.start.toNat + r.count.toNat

/-- A range that a caller's map can have beside the caller's own number. -/
structure UsableBeside (r : SubIdRange) (id : UInt32) : Prop where
  apart : ¬ r.Has id.toNat
  bounded : r.start.toNat + r.count.toNat ≤ UInt32.size

instance (r : SubIdRange) (n : Nat) : Decidable (r.Has n) :=
  inferInstanceAs (Decidable (_ ∧ _))

instance (r : SubIdRange) (id : UInt32) : Decidable (r.UsableBeside id) :=
  decidable_of_iff (¬ r.Has id.toNat ∧ r.start.toNat + r.count.toNat ≤ UInt32.size)
    ⟨fun ⟨hapart, hbounded⟩ => ⟨hapart, hbounded⟩, fun h => ⟨h.apart, h.bounded⟩⟩

end SubIdRange

/-! ## The maps of a fake superuser -/

namespace SubordinateMaps

variable {uid gid id : UInt32} {username subuid subgid : String} {r : SubIdRange}
  {mode : MapWriter} {maps : SubordinateMaps}

/-- In the container, number 0 is followed by the numbers of the range. -/
theorem fitsInside_mapOf (id : UInt32) (r : SubIdRange) :
    IdMapLine.FitsInside (mapOf id r) := by
  have hcount : r.count.toNat < UInt32.size := r.count.toNat_lt
  constructor
  · simp only [mapOf, List.pairwise_pair, IdMapLine.HasInside]
    rintro n ⟨-, hown⟩ ⟨hrange, -⟩
    have hzero : (0 : UInt32).toNat + (1 : UInt32).toNat = (1 : UInt32).toNat := rfl
    omega
  · intro m hm
    simp only [mapOf, List.mem_cons, List.not_mem_nil, or_false] at hm
    rcases hm with rfl | rfl
    · have hfits : (0 : UInt32).toNat + (1 : UInt32).toNat ≤ UInt32.size := by decide
      exact hfits
    · have hone : (1 : UInt32).toNat = 1 := rfl
      simp only [hone]
      omega

/-- On the host, the range has to leave the caller's own number out and to end in time. -/
theorem fitsOutside_mapOf_iff : IdMapLine.FitsOutside (mapOf id r) ↔ r.UsableBeside id := by
  have hone : (1 : UInt32).toNat = 1 := rfl
  have hid : id.toNat < UInt32.size := id.toNat_lt
  constructor
  · rintro ⟨hdisjoint, hbounded⟩
    simp only [mapOf, List.pairwise_pair, IdMapLine.HasOutside, hone] at hdisjoint
    refine ⟨hdisjoint id.toNat ⟨Nat.le_refl _, Nat.lt_succ_self _⟩, ?_⟩
    exact hbounded ⟨1, r.start, r.count⟩ (by simp [mapOf])
  · rintro ⟨hapart, hbounded⟩
    constructor
    · simp only [mapOf, List.pairwise_pair, IdMapLine.HasOutside, hone]
      rintro n ⟨hfrom, hbelow⟩ hrange
      obtain rfl : n = id.toNat := by omega
      exact hapart hrange
    · intro m hm
      simp only [mapOf, List.mem_cons, List.not_mem_nil, or_false] at hm
      rcases hm with rfl | rfl
      · simp only [hone]
        omega
      · exact hbounded

/-- If there are maps for a caller, each of them has the caller's own number and the range of
the first line for the user.  In the container they always fit.  On the host one fits exactly
if its range does not have the caller's own number and ends with the numbers of 32 bits; the
line that was chosen need not describe such a range. -/
theorem build_fits_iff
    (hbuild : build uid gid username (SubIdRange.parse subuid) (SubIdRange.parse subgid) mode =
      .ok maps) :
    ∃ users groups, SubIdRange.FirstFor subuid username uid users ∧
      SubIdRange.FirstFor subgid username uid groups ∧
      maps.uidMap = [⟨0, uid, 1⟩, ⟨1, users.start, users.count⟩] ∧
      maps.gidMap = [⟨0, gid, 1⟩, ⟨1, groups.start, groups.count⟩] ∧
      IdMapLine.FitsInside maps.uidMap ∧ IdMapLine.FitsInside maps.gidMap ∧
      (IdMapLine.FitsOutside maps.uidMap ↔ users.UsableBeside uid) ∧
      (IdMapLine.FitsOutside maps.gidMap ↔ groups.UsableBeside gid) := by
  obtain ⟨users, groups, husers, hgroups, rfl⟩ := build_ok.mp hbuild
  exact ⟨users, groups, SubIdRange.first?_parse_eq_some_iff.mp husers,
    SubIdRange.first?_parse_eq_some_iff.mp hgroups, rfl, rfl, fitsInside_mapOf uid users,
    fitsInside_mapOf gid groups, fitsOutside_mapOf_iff, fitsOutside_mapOf_iff⟩

/-! ## A range that is usable, and two that are not -/

/-- The caller's own number comes right before its range of users and right after its range
of groups, and both maps fit. -/
theorem build_fits_iff_neighbours :
    ∃ maps, build 99999 165536 "alice" (SubIdRange.parse "# ranges\nalice:100000:65536\n")
        (SubIdRange.parse "bob:7:0\n99999:100000:65536\n") .setuid = .ok maps ∧
      IdMapLine.FitsOutside maps.uidMap ∧ IdMapLine.FitsOutside maps.gidMap := by
  obtain ⟨maps, hbuild, hmaps⟩ : ∃ maps,
      build 99999 165536 "alice" (SubIdRange.parse "# ranges\nalice:100000:65536\n")
        (SubIdRange.parse "bob:7:0\n99999:100000:65536\n") .setuid = .ok maps ∧
      (maps.uidMap, maps.gidMap) = (mapOf 99999 ⟨"alice", 100000, 65536⟩,
        mapOf 165536 ⟨"99999", 100000, 65536⟩) :=
    Error.exists_ok_of_map (by decide +kernel)
  obtain ⟨users, groups, -, -, huid, hgid, -, -, huid_iff, hgid_iff⟩ := build_fits_iff hbuild
  obtain ⟨hmapuid, hmapgid⟩ := Prod.mk.inj hmaps
  rw [hmapuid] at huid
  rw [hmapgid] at hgid
  simp only [mapOf, List.cons.injEq, IdMapLine.mk.injEq, true_and, and_true] at huid hgid
  refine ⟨maps, hbuild, huid_iff.mpr ?_, hgid_iff.mpr ?_⟩
  · constructor
    · rw [SubIdRange.Has, ← huid.1, ← huid.2]
      decide
    · rw [← huid.1, ← huid.2]
      decide
  · constructor
    · rw [SubIdRange.Has, ← hgid.1, ← hgid.2]
      decide
    · rw [← hgid.1, ← hgid.2]
      decide

/-- A range that runs past the numbers of 32 bits is chosen although a usable one comes after
it, and so is one that has the caller's own number. -/
theorem unusable_range_chosen :
    (∃ maps, build 1000 1000 "alice"
        (SubIdRange.parse "alice:4294967295:2\nalice:100000:65536\n")
        (SubIdRange.parse "alice:100000:65536\n") .setuid = .ok maps ∧
      ¬ IdMapLine.FitsOutside maps.uidMap) ∧
    ∃ maps, build 1000 1000 "alice" (SubIdRange.parse "alice:100000:65536\n")
        (SubIdRange.parse "alice:1000:1\nalice:100000:65536\n") .setuid = .ok maps ∧
      ¬ IdMapLine.FitsOutside maps.gidMap := by
  constructor
  · obtain ⟨maps, hbuild, hmap⟩ : ∃ maps,
        build 1000 1000 "alice" (SubIdRange.parse "alice:4294967295:2\nalice:100000:65536\n")
          (SubIdRange.parse "alice:100000:65536\n") .setuid = .ok maps ∧
        maps.uidMap = mapOf 1000 ⟨"alice", 4294967295, 2⟩ :=
      Error.exists_ok_of_map (by decide +kernel)
    refine ⟨maps, hbuild, ?_⟩
    rw [hmap, fitsOutside_mapOf_iff]
    decide
  · obtain ⟨maps, hbuild, hmap⟩ : ∃ maps,
        build 1000 1000 "alice" (SubIdRange.parse "alice:100000:65536\n")
          (SubIdRange.parse "alice:1000:1\nalice:100000:65536\n") .setuid = .ok maps ∧
        maps.gidMap = mapOf 1000 ⟨"alice", 1000, 1⟩ :=
      Error.exists_ok_of_map (by decide +kernel)
    refine ⟨maps, hbuild, ?_⟩
    rw [hmap, fitsOutside_mapOf_iff]
    decide

end SubordinateMaps
end ContainerLaunch
