import ContainerLaunch.Proofs.SetAsideRanges
/-!
# Which groups a list names

A caller is described by the numbers of its process and by what the database knows about its
supplementary groups: those that have no name there are left out, and the name of the primary
group is not looked up.  So an allow-list never names a caller by a group that it is not in,
but some entries that do name one of its groups are overlooked: the name of its primary
group, the number of a supplementary group without a name, and a name that is read as a
number.
-/

namespace ContainerLaunch

/-- The name that the database gives to a group, if any. -/
def Directory.nameOfGroup (d : Directory) (gid : UInt32) : Option String :=
  (d.groupById gid).map UnixGroup.name

/-- The database gives a name to a group. -/
def Directory.Names (d : Directory) (gid : UInt32) (name : String) : Prop :=
  d.nameOfGroup gid = some name

instance (d : Directory) (gid : UInt32) (name : String) : Decidable (d.Names gid name) :=
  inferInstanceAs (Decidable (_ = _))

namespace Credentials

variable {c : Credentials} {d : Directory} {entry : String}

/-! ## Entries that name a group -/

/-- An entry of a list names a group of a process: without the white space around it, it is
the number of the group or the name that the database gives to it. -/
def HasGroup (c : Credentials) (d : Directory) (entry : String) : Prop :=
  ∃ gid ∈ c.gid :: c.groups,
    Text.Writes (Text.trim entry) gid ∨ d.Names gid (Text.trim entry)

/-- How an entry is found to name a group of a process. -/
inductive Recognized (c : Credentials) (d : Directory) (entry : String) : Prop
  /-- It is the number of the primary group. -/
  | primary (hwrites : Text.Writes (Text.trim entry) c.gid)
  /-- It is the number of a supplementary group that has a name. -/
  | supplementary (gid : UInt32) (hgroup : gid ∈ c.groups)
      (hwrites : Text.Writes (Text.trim entry) gid) (hknown : ∃ name, d.Names gid name)
  /-- It is the name of a supplementary group, and no number. -/
  | name (gid : UInt32) (hgroup : gid ∈ c.groups) (hname : d.Names gid (Text.trim entry))
      (hword : ∀ n, ¬ Text.Writes (Text.trim entry) n)

/-- Why an entry that names a group of a process is overlooked. -/
inductive Overlooked (c : Credentials) (d : Directory) (entry : String) : Prop
  /-- It is the name of the primary group and of no supplementary one. -/
  | primaryName (hname : d.Names c.gid (Text.trim entry))
      (hword : ∀ n, ¬ Text.Writes (Text.trim entry) n)
      (hother : ∀ gid ∈ c.groups, ¬ d.Names gid (Text.trim entry))
  /-- It is the number of a supplementary group without a name. -/
  | unknownNumber (gid : UInt32) (hgroup : gid ∈ c.groups) (hother : gid ≠ c.gid)
      (hwrites : Text.Writes (Text.trim entry) gid) (hunknown : ¬ ∃ name, d.Names gid name)
  /-- It is the name of a group, but is read as a number that no group of the process has. -/
  | numeral (gid n : UInt32) (hgroup : gid ∈ c.gid :: c.groups)
      (hname : d.Names gid (Text.trim entry)) (hwrites : Text.Writes (Text.trim entry) n)
      (hother : n ∉ c.gid :: c.groups)

/-- What is recognized names a group. -/
theorem Recognized.hasGroup (h : Recognized c d entry) : c.HasGroup d entry := by
  cases h with
  | primary hwrites => exact ⟨c.gid, List.mem_cons_self, Or.inl hwrites⟩
  | supplementary gid hgroup hwrites hknown =>
      exact ⟨gid, List.mem_cons_of_mem _ hgroup, Or.inl hwrites⟩
  | name gid hgroup hname hword => exact ⟨gid, List.mem_cons_of_mem _ hgroup, Or.inr hname⟩

theorem Overlooked.hasGroup (h : Overlooked c d entry) : c.HasGroup d entry := by
  cases h with
  | primaryName hname hword hother => exact ⟨c.gid, List.mem_cons_self, Or.inr hname⟩
  | unknownNumber gid hgroup hother hwrites hunknown =>
      exact ⟨gid, List.mem_cons_of_mem _ hgroup, Or.inl hwrites⟩
  | numeral gid n hgroup hname hwrites hother => exact ⟨gid, hgroup, Or.inr hname⟩

/-- What is overlooked is not recognized: a text writes one number at most. -/
theorem Overlooked.not_recognized (h : Overlooked c d entry) : ¬ Recognized c d entry := by
  rintro (hwrites | ⟨gid, hgroup, hwrites, hknown⟩ | ⟨gid, hgroup, hname, hword⟩)
  case primary =>
    cases h with
    | primaryName hname hword hother => exact hword _ hwrites
    | unknownNumber gid hgroup hother hwrites' hunknown => exact hother (hwrites'.unique hwrites)
    | numeral gid n hgroup hname hwrites' hother =>
        exact hother (hwrites'.unique hwrites ▸ List.mem_cons_self)
  case supplementary =>
    cases h with
    | primaryName hname hword hother => exact hword _ hwrites
    | unknownNumber gid' hgroup' hother hwrites' hunknown =>
        exact hunknown (hwrites'.unique hwrites ▸ hknown)
    | numeral gid' n hgroup' hname hwrites' hother =>
        exact hother (hwrites'.unique hwrites ▸ List.mem_cons_of_mem _ hgroup)
  case name =>
    cases h with
    | primaryName hname' hword' hother => exact hother gid hgroup hname
    | unknownNumber gid' hgroup' hother hwrites hunknown => exact hword _ hwrites
    | numeral gid' n hgroup' hname' hwrites hother => exact hword _ hwrites

/-- What names a group is either recognized or overlooked. -/
theorem hasGroup_iff : c.HasGroup d entry ↔ Recognized c d entry ∨ Overlooked c d entry := by
  constructor
  · intro hgroup
    by_cases hnumber : ∃ n, Text.Writes (Text.trim entry) n
    · obtain ⟨n, hn⟩ := hnumber
      by_cases hprimary : n = c.gid
      · exact Or.inl (.primary (hprimary ▸ hn))
      · by_cases hmem : n ∈ c.groups
        · by_cases hknown : ∃ name, d.Names n name
          · exact Or.inl (.supplementary n hmem hn hknown)
          · exact Or.inr (.unknownNumber n hmem hprimary hn hknown)
        · -- the number is that of no group, so the entry is the name of one
          have hother : n ∉ c.gid :: c.groups := by simp [hprimary, hmem]
          obtain ⟨gid, hgid, hwrites | hname⟩ := hgroup
          · exact absurd (hwrites.unique hn ▸ hgid) hother
          · exact Or.inr (.numeral gid n hgid hname hn hother)
    · rw [not_exists] at hnumber
      obtain ⟨gid, hgid, hwrites | hname⟩ := hgroup
      · exact absurd hwrites (hnumber gid)
      · by_cases hsupplementary : ∃ gid ∈ c.groups, d.Names gid (Text.trim entry)
        · obtain ⟨gid, hgid, hname⟩ := hsupplementary
          exact Or.inl (.name gid hgid hname hnumber)
        · have hother : ∀ gid ∈ c.groups, ¬ d.Names gid (Text.trim entry) := by
            simpa using hsupplementary
          rcases List.mem_cons.mp hgid with rfl | hgid
          · exact Or.inr (.primaryName hname hnumber hother)
          · exact absurd hname (hother gid hgid)
  · rintro (hfound | hmissed)
    · exact hfound.hasGroup
    · exact hmissed.hasGroup

end Credentials

namespace Caller

variable {c : Credentials} {d : Directory} {entry : String}

/-! ## What a list is found to name -/

theorem gid_ofCredentials (c : Credentials) (d : Directory) : (ofCredentials c d).gid = c.gid := by
  unfold ofCredentials
  split <;> rfl

/-- Of the supplementary groups a caller has those that the database names. -/
theorem mem_groups_ofCredentials {g : UnixGroup} :
    g ∈ (ofCredentials c d).groups ↔ g.gid ∈ c.groups ∧ d.Names g.gid g.name := by
  have hgroups : (ofCredentials c d).groups = c.groups.filterMap (knownGroup d) := by
    unfold ofCredentials
    split <;> rfl
  rw [hgroups, List.mem_filterMap]
  simp only [knownGroup, Option.map_eq_some_iff, Directory.Names, Directory.nameOfGroup]
  constructor
  · rintro ⟨gid, hgid, found, hfound, rfl⟩
    exact ⟨hgid, found, hfound, rfl⟩
  · rintro ⟨hgid, found, hfound, hname⟩
    exact ⟨g.gid, hgid, found, hfound, by rw [hname]⟩

theorem hasGroupNamedBy_iff :
    (ofCredentials c d).hasGroupNamedBy entry = true ↔ c.Recognized d entry := by
  unfold hasGroupNamedBy
  cases hread : Text.u32? (Text.trim entry) with
  | some n =>
      have hwrites := Text.u32?_eq_some_iff.mp hread
      simp only [hread, Bool.or_eq_true, beq_iff_eq, List.any_eq_true, mem_groups_ofCredentials,
        gid_ofCredentials]
      constructor
      · rintro (rfl | ⟨g, ⟨hmem, hname⟩, rfl⟩)
        · exact .primary hwrites
        · exact .supplementary g.gid hmem hwrites ⟨g.name, hname⟩
      · rintro (hprimary | ⟨gid, hmem, hgid, name, hname⟩ | ⟨gid, hmem, hname, hword⟩)
        · exact Or.inl (hwrites.unique hprimary)
        · exact Or.inr ⟨⟨gid, name⟩, ⟨hmem, hname⟩, hgid.unique hwrites⟩
        · exact absurd hwrites (hword n)
  | none =>
      have hword : ∀ n, ¬ Text.Writes (Text.trim entry) n := by
        intro n hwrites
        rw [Text.u32?_eq_some_iff.mpr hwrites] at hread
        cases hread
      simp only [hread, List.any_eq_true, mem_groups_ofCredentials, beq_iff_eq]
      constructor
      · rintro ⟨g, ⟨hmem, hname⟩, hentry⟩
        exact .name g.gid hmem (hentry ▸ hname) hword
      · rintro (hprimary | ⟨gid, hmem, hgid, hknown⟩ | ⟨gid, hmem, hname, -⟩)
        · exact absurd hprimary (hword c.gid)
        · exact absurd hgid (hword gid)
        · exact ⟨⟨gid, Text.trim entry⟩, ⟨hmem, hname⟩, rfl⟩

/-- A list is found to name a group of the caller for an entry that is recognized.  Such an
entry does name one of its groups, and an entry that names one is recognized unless it is
overlooked for one of three reasons.  So a list is read exactly if it has an entry that is
recognized wherever it has one that is overlooked. -/
theorem isInGroups_exact_iff (c : Credentials) (d : Directory) (list : List String) :
    ((ofCredentials c d).isInGroups list = true ↔ ∃ entry ∈ list, c.Recognized d entry) ∧
      (∀ entry, c.HasGroup d entry ↔ c.Recognized d entry ∨ c.Overlooked d entry) ∧
      (∀ entry, c.Overlooked d entry → ¬ c.Recognized d entry) ∧
      (((ofCredentials c d).isInGroups list = true ↔ ∃ entry ∈ list, c.HasGroup d entry) ↔
        ((∃ entry ∈ list, c.Overlooked d entry) → ∃ entry ∈ list, c.Recognized d entry)) := by
  have hfound : (ofCredentials c d).isInGroups list = true ↔
      ∃ entry ∈ list, c.Recognized d entry := by
    simp only [isInGroups, List.any_eq_true, hasGroupNamedBy_iff]
  refine ⟨hfound, fun entry => Credentials.hasGroup_iff,
    fun entry hmissed => hmissed.not_recognized, ?_⟩
  rw [hfound]
  constructor
  · rintro hexact ⟨entry, hentry, hmissed⟩
    exact hexact.mpr ⟨entry, hentry, hmissed.hasGroup⟩
  · intro hcovered
    constructor
    · rintro ⟨entry, hentry, hknown⟩
      exact ⟨entry, hentry, hknown.hasGroup⟩
    · rintro ⟨entry, hentry, hgroup⟩
      rcases Credentials.hasGroup_iff.mp hgroup with hknown | hmissed
      · exact ⟨entry, hentry, hknown⟩
      · exact hcovered ⟨entry, hentry, hmissed⟩

/-- A list that names the primary group of a caller does not name the caller. -/
theorem primary_group_overlooked :
    let credentials : Credentials := ⟨4001, 4001, 4001, []⟩
    let directory : Directory := ⟨[], [⟨4001, "alice"⟩]⟩
    credentials.HasGroup directory "alice" ∧
      (ofCredentials credentials directory).isInGroups ["alice"] = false :=
  ⟨⟨4001, List.mem_cons_self, Or.inr (by decide +kernel)⟩, by decide +kernel⟩

/-- The other two reasons: a group without a name, and a name that is read as a number. -/
example :
    (ofCredentials ⟨4001, 4001, 4001, [5000, 51]⟩ ⟨[], [⟨51, "4998"⟩]⟩).isInGroups
      ["5000", "4998"] = false := by
  decide +kernel

end Caller

end ContainerLaunch
