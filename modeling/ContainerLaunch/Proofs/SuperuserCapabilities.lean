import ContainerLaunch.Proofs.Capabilities
/-!
# The capabilities of the superuser

What the superuser starts from is decided by the first of four rules that applies.  The
request adds to it, and what it drops is taken out in the end.  Lists are only asked
which names they hold, so that neither the order of the names nor their number counts;
and what an instance had before is not looked at.
-/

namespace ContainerLaunch

/-- What a demand and the policy leave to the superuser.  Giving up privileges comes
before keeping them, and keeping them before running as somebody else. -/
inductive CapabilityDemand.LeavesRoot (r : CapabilityDemand) (mode : RootCapabilities) :
    RootCapabilities → Prop
  | givenUp (hnone : r.noPrivileges = true) : LeavesRoot r mode .no
  | kept (hnone : r.noPrivileges = false) (hkeep : r.keepPrivileges = true) :
      LeavesRoot r mode .full
  | target (hnone : r.noPrivileges = false) (hkeep : r.keepPrivileges = false)
      (htarget : r.targetIds = true) : LeavesRoot r mode .no
  | policy (hnone : r.noPrivileges = false) (hkeep : r.keepPrivileges = false)
      (htarget : r.targetIds = false) : LeavesRoot r mode mode

namespace Capability

variable {k : Capability} {a b : List String}

/-! ## Lists with the same names -/

/-- Two lists have the same names, in whichever order, however often, and however they are
put together in entries. -/
def SameNames (a b : List String) : Prop :=
  a.flatMap namesIn ⊆ b.flatMap namesIn ∧ b.flatMap namesIn ⊆ a.flatMap namesIn

instance (a b : List String) : Decidable (SameNames a b) :=
  inferInstanceAs (Decidable (_ ∧ _))

theorem flatMap_namesIn_subset (hsub : a ⊆ b) : a.flatMap namesIn ⊆ b.flatMap namesIn := by
  intro name hname
  obtain ⟨entry, hentry, hname⟩ := List.mem_flatMap.mp hname
  exact List.mem_flatMap.mpr ⟨entry, hsub hentry, hname⟩

/-- The order of the entries and their repetitions do not matter. -/
theorem sameNames_of_entries (hsame : ∀ entry, entry ∈ a ↔ entry ∈ b) : SameNames a b :=
  ⟨flatMap_namesIn_subset fun entry => (hsame entry).mp,
    flatMap_namesIn_subset fun entry => (hsame entry).mpr⟩

theorem NamedIn.of_subset (hsub : a.flatMap namesIn ⊆ b.flatMap namesIn)
    (hk : k.NamedIn a) : k.NamedIn b := by
  simp only [← mem_named_iff_namedIn, mem_named_iff, tokens, List.mem_map] at hk ⊢
  obtain ⟨_, ⟨name, hname, rfl⟩, hk⟩ := hk
  exact ⟨_, ⟨name, hsub hname, rfl⟩, hk⟩

theorem SameNames.namedIn_iff (hsame : SameNames a b) : k.NamedIn a ↔ k.NamedIn b :=
  ⟨.of_subset hsame.1, .of_subset hsame.2⟩

end Capability

namespace Grant

variable {k : Capability} {c c' : Caller} {t t' : CapabilityTable} {r r' : CapabilityDemand}
  {mode m : RootCapabilities}

/-! ## The set -/

theorem rootMode_eq_iff : rootMode mode r = m ↔ r.LeavesRoot mode m := by
  constructor
  · rintro rfl
    unfold rootMode
    cases hnone : r.noPrivileges with
    | true => exact .givenUp hnone
    | false =>
        cases hkeep : r.keepPrivileges with
        | true => exact .kept hnone hkeep
        | false =>
            cases htarget : r.targetIds with
            | true => exact .target hnone hkeep htarget
            | false => exact .policy hnone hkeep htarget
  · intro hleaves
    cases hleaves with
    | givenUp hnone => simp [rootMode, hnone]
    | kept hnone hkeep => simp [rootMode, hnone, hkeep]
    | target hnone hkeep htarget => simp [rootMode, hnone, hkeep, htarget]
    | policy hnone hkeep htarget => simp [rootMode, hnone, hkeep, htarget]

theorem mem_rootStart : k ∈ rootStart c t m ↔ m = .full ∨ m = .table ∧ t.NamesForRoot c k := by
  cases m with
  | full => simp [rootStart, CapabilitySet.mem_full]
  | table => simp [rootStart, mem_rootTable]
  | no => simp [rootStart, CapabilitySet.not_mem_empty]

theorem mem_forRoot :
    k ∈ (forRoot c t mode r).set ↔
      ¬ k.NamedIn r.drop ∧ (k.NamedIn r.add ∨ rootMode mode r = .full ∨
        rootMode mode r = .table ∧ t.NamesForRoot c k) := by
  change k ∈ CapabilitySet.diff _ _ ↔ _
  rw [CapabilitySet.mem_diff, CapabilitySet.mem_union, mem_rootStart,
    Capability.mem_named_iff_namedIn, Capability.mem_named_iff_namedIn, and_comm]
  exact and_congr_right fun _ => or_comm

/-! ## Demands that say the same -/

/-- The superuser, the table and the demand are given once more, with the groups and the
names of the lists in another order or repeated, and with anything to restore. -/
structure SaysTheSame (c c' : Caller) (t t' : CapabilityTable) (r r' : CapabilityDemand) :
    Prop where
  groups : ∀ group, group ∈ c'.namesOfGroups ↔ group ∈ c.namesOfGroups
  ofUser : Capability.SameNames (t'.ofUser "root") (t.ofUser "root")
  ofGroup : ∀ group ∈ c.namesOfGroups,
    Capability.SameNames (t'.ofGroup group) (t.ofGroup group)
  add : Capability.SameNames r'.add r.add
  drop : Capability.SameNames r'.drop r.drop
  noPrivileges : r'.noPrivileges = r.noPrivileges
  keepPrivileges : r'.keepPrivileges = r.keepPrivileges
  targetIds : r'.targetIds = r.targetIds

theorem SaysTheSame.rootMode_eq (hsame : SaysTheSame c c' t t' r r') :
    rootMode mode r' = rootMode mode r := by
  unfold rootMode
  rw [hsame.noPrivileges, hsame.keepPrivileges, hsame.targetIds]

theorem SaysTheSame.namesForRoot_iff (hsame : SaysTheSame c c' t t' r r') :
    t'.NamesForRoot c' k ↔ t.NamesForRoot c k := by
  refine or_congr hsame.ofUser.namedIn_iff (exists_congr fun group => ?_)
  rw [hsame.groups]
  exact and_congr_right fun hgroup => (hsame.ofGroup group hgroup).namedIn_iff

theorem SaysTheSame.set_eq (hsame : SaysTheSame c c' t t' r r') :
    (forRoot c' t' mode r').set = (forRoot c t mode r).set := by
  apply (known_forRoot mode r').ext (known_forRoot mode r)
  intro k
  rw [mem_forRoot, mem_forRoot, hsame.rootMode_eq, hsame.namesForRoot_iff,
    hsame.drop.namedIn_iff, hsame.add.namedIn_iff]

theorem noNewPrivileges_forRoot :
    (forRoot c t mode r).noNewPrivileges = true ↔ rootMode mode r = .no := by
  change (rootMode mode r == .no) = true ↔ _
  cases rootMode mode r <;> decide

/-! ## Every demand -/

/-- The superuser is given a capability if its request does not drop it and either adds it
or leaves the superuser all capabilities or those that the table names.  The process may
not gain privileges exactly if nothing is left to the superuser.  None of this depends on
what is restored, on the order of the groups and names, or on how often they are given. -/
theorem forRoot_spec (c : Caller) (t : CapabilityTable) (mode : RootCapabilities)
    (r : CapabilityDemand) :
    ∃ m, r.LeavesRoot mode m ∧
      (∀ k : Capability, k ∈ (forRoot c t mode r).set ↔
        ¬ k.NamedIn r.drop ∧
          (k.NamedIn r.add ∨ m = .full ∨ m = .table ∧ t.NamesForRoot c k)) ∧
      ((forRoot c t mode r).noNewPrivileges = true ↔ m = .no) ∧
      ∀ c' t' r', SaysTheSame c c' t t' r r' →
        (forRoot c' t' mode r').set = (forRoot c t mode r).set ∧
          (forRoot c' t' mode r').noNewPrivileges = (forRoot c t mode r).noNewPrivileges := by
  refine ⟨rootMode mode r, rootMode_eq_iff.mp rfl, fun k => mem_forRoot,
    noNewPrivileges_forRoot, ?_⟩
  intro c' t' r' hsame
  refine ⟨hsame.set_eq, ?_⟩
  rw [Bool.eq_iff_iff, noNewPrivileges_forRoot, noNewPrivileges_forRoot, hsame.rootMode_eq]

/-! ## A demand that is given in two ways -/

/-- The superuser with groups of these names. -/
def rootIn (groups : List String) : Caller :=
  { (default : Caller) with username := "root", groups := groups.map (⟨0, ·⟩) }

theorem namesOfGroups_rootIn (groups : List String) :
    (rootIn groups).namesOfGroups = groups := by
  simp only [rootIn, Caller.namesOfGroups, List.map_map]
  exact List.map_id groups

/-- A table with entries for one group only. -/
def tableOf (group : String) (entries : List String) : CapabilityTable :=
  ⟨.empty, .ofList [(group, entries)]⟩

def addingLease : CapabilityDemand :=
  { (default : CapabilityDemand) with add := ["bpf", "lease"], drop := ["chown"] }

/-- The same demand in one entry, with a repetition and with something to restore. -/
def addingLeaseAgain : CapabilityDemand :=
  { (default : CapabilityDemand) with
    add := ["lease,bpf"], drop := ["chown", "chown"], existing := ["all"] }

theorem saysTheSame_addingLease :
    SaysTheSame (rootIn ["adm", "net"]) (rootIn ["net", "adm", "net"])
      (tableOf "adm" ["kill", "net_raw,chown"]) (tableOf "adm" ["chown", "kill,net_raw", "kill"])
      addingLease addingLeaseAgain where
  groups := by
    intro group
    rw [namesOfGroups_rootIn, namesOfGroups_rootIn]
    grind
  ofUser := by decide +kernel
  ofGroup := by decide +kernel
  add := by decide +kernel
  drop := Capability.sameNames_of_entries (by simp [addingLease, addingLeaseAgain])
  noPrivileges := rfl
  keepPrivileges := rfl
  targetIds := rfl

theorem forRoot_spec_addingLease :
    (forRoot (rootIn ["net", "adm", "net"]) (tableOf "adm" ["chown", "kill,net_raw", "kill"])
        .table addingLeaseAgain).set =
      (forRoot (rootIn ["adm", "net"]) (tableOf "adm" ["kill", "net_raw,chown"])
        .table addingLease).set ∧
    (forRoot (rootIn ["adm", "net"]) (tableOf "adm" ["kill", "net_raw,chown"])
        .table addingLease).set.names = ["CAP_KILL", "CAP_NET_RAW", "CAP_LEASE", "CAP_BPF"] := by
  obtain ⟨-, -, -, -, hsame⟩ := forRoot_spec (rootIn ["adm", "net"])
    (tableOf "adm" ["kill", "net_raw,chown"]) .table addingLease
  exact ⟨(hsame _ _ _ saysTheSame_addingLease).1, by decide +kernel⟩

end Grant
end ContainerLaunch
