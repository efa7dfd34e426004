import ContainerLaunch.Proofs.NumberMaps
/-!
# Whose files a privileged launch trusts

A privileged launch reads the policy and the capability table only if the superuser
owns them, and ends at once otherwise.  The files of subordinate ranges are read by a
fake superuser's launch as well, but nobody asks who owns them.
-/

namespace ContainerLaunch

/-! ## Owners of files -/

namespace Host

/-- Whether a path leads to something that belongs to the superuser. -/
def RootOwns (h : Host) (p : Path) : Prop :=
  ∃ inode, h.stat p = .ok inode ∧ inode.uid = 0

/-- Why a privileged launch does not trust a file. -/
inductive Distrusts (h : Host) (p : Path) : Error → Prop
  | unknown (cause : IoError) (hstat : h.stat p = .error cause) :
      Distrusts h p (.untrustedPolicy p cause.message)
  | foreign (inode : Inode) (hstat : h.stat p = .ok inode) (howner : inode.uid ≠ 0) :
      Distrusts h p (.untrustedPolicy p s!"must be owned by root, owned by UID {inode.uid}")

end Host

/-- A file that the administrator may have to keep. -/
inductive AdminInput where
  | policy
  | capabilities
  | subuid
  | subgid
  deriving DecidableEq, Repr

namespace AdminInput

def path (s : AdminPaths) : AdminInput → Path
  | .policy => s.config
  | .capabilities => s.capability
  | .subuid => s.subuid
  | .subgid => s.subgid

/-- Whether the contents of a file count in a launch: the table only if there is one, and
the ranges only for the fake superuser of a new container. -/
def Counts (h : Host) (s : AdminPaths) (c : LaunchConfig) : AdminInput → Prop
  | .policy => True
  | .capabilities => h.exists? s.capability = true
  | .subuid | .subgid => c.instanceJoin = none ∧ c.fakeroot = true

end AdminInput

namespace AdminPaths

variable {h : Host} {s : AdminPaths} {p : Path} {files : AdminFiles} {e : Error} {u : Unit}

/-- Files of which the policy and the table, if there is one, are the superuser's. -/
structure Trusted (s : AdminPaths) (h : Host) : Prop where
  config : h.RootOwns s.config
  capability : h.exists? s.capability = true → h.RootOwns s.capability

theorem requireRootOwned_ok : requireRootOwned h p = .ok u ↔ h.RootOwns p := by
  unfold requireRootOwned Host.RootOwns
  cases hstat : h.stat p with
  | error cause => simp
  | ok inode =>
      by_cases howner : inode.uid = 0
      · simp [howner]
      · simp [howner]

theorem requireRootOwned_error : requireRootOwned h p = .error e ↔ h.Distrusts p e := by
  unfold requireRootOwned
  constructor
  · intro hcheck
    split at hcheck
    · next cause hstat =>
      cases hcheck
      exact .unknown cause hstat
    · next inode hstat =>
      split at hcheck
      · cases hcheck
      · next howner =>
        cases hcheck
        exact .foreign inode hstat howner
  · intro hdistrust
    cases hdistrust with
    | unknown cause hstat => rw [hstat]
    | foreign inode hstat howner => simp only [hstat, if_neg howner]

theorem ensureTrusted_ok : ensureTrusted h s = .ok u ↔ s.Trusted h := by
  unfold ensureTrusted
  rw [Error.bind_eq_ok]
  constructor
  · rintro ⟨_, hconfig, htable⟩
    refine ⟨requireRootOwned_ok.mp hconfig, ?_⟩
    intro hthere
    rw [if_pos hthere] at htable
    exact requireRootOwned_ok.mp htable
  · rintro ⟨hconfig, htable⟩
    refine ⟨(), requireRootOwned_ok.mpr hconfig, ?_⟩
    split
    · next hthere => exact requireRootOwned_ok.mpr (htable hthere)
    · rfl

/-- The check fails over one of the two files, and says which. -/
theorem ensureTrusted_error (hcheck : ensureTrusted h s = .error e) :
    h.Distrusts s.config e ∨ h.exists? s.capability = true ∧ h.Distrusts s.capability e := by
  unfold ensureTrusted at hcheck
  cases hconfig : requireRootOwned h s.config with
  | error e₁ =>
      rw [hconfig] at hcheck
      cases hcheck
      exact Or.inl (requireRootOwned_error.mp hconfig)
  | ok _ =>
      rw [hconfig] at hcheck
      by_cases hthere : h.exists? s.capability = true
      · refine Or.inr ⟨hthere, requireRootOwned_error.mp ?_⟩
        simpa [hthere, Bind.bind, Except.bind] using hcheck
      · simp [hthere, Bind.bind, Except.bind, pure, Except.pure] at hcheck

theorem trusted_of_load (hload : s.load h true = .ok files) : s.Trusted h := by
  unfold load at hload
  obtain ⟨_, htrusted, -⟩ := Error.bind_eq_ok.mp hload
  exact ensureTrusted_ok.mp htrusted

/-- Files that are not trusted are not even read. -/
theorem load_error_of_not_trusted (hnot : ¬ s.Trusted h) :
    ∃ e, s.load h true = .error e ∧
      (h.Distrusts s.config e ∨ h.exists? s.capability = true ∧ h.Distrusts s.capability e) := by
  cases hcheck : ensureTrusted h s with
  | ok _ => exact absurd (ensureTrusted_ok.mp hcheck) hnot
  | error e =>
      refine ⟨e, ?_, ensureTrusted_error hcheck⟩
      simp [load, hcheck, Bind.bind, Except.bind]

end AdminPaths

/-! ## What a launch trusts -/

namespace Launcher

variable {l : Launcher} {c : LaunchConfig} {h h' : Host} {r : ReadyLaunch}

/-- The administrator's files of a launch, with the policy that its caller may choose. -/
def adminPaths (l : Launcher) (c : LaunchConfig) : AdminPaths :=
  l.sources.override c.configurationFile l.facts.suidInstall l.facts.caller.euid

theorem trusted_of_loadPolicy {files : AdminFiles} (hsuid : l.facts.isSuid = true)
    (hfiles : l.loadPolicy c h = .ok files) : (l.adminPaths c).Trusted h := by
  obtain ⟨loaded, hload, -⟩ := Error.bind_eq_ok.mp hfiles
  rw [hsuid] at hload
  exact AdminPaths.trusted_of_load hload

/-- A fake superuser's maps are made of what the two files of ranges say. -/
theorem maps_of_ranges (hfresh : c.instanceJoin = none) (hroot : c.fakeroot = true)
    (hrun : (l.prepare c).perform h = (.ok r, h')) :
    ∃ users groups, SubIdRange.IsSelected h l.sources.subuid l.facts.caller users ∧
      SubIdRange.IsSelected h l.sources.subgid l.facts.caller groups ∧
      r.plan.uidMap = SubordinateMaps.mapOf l.facts.caller.uid users ∧
      r.plan.gidMap = SubordinateMaps.mapOf l.facts.caller.gid groups := by
  obtain ⟨files, maps, hplan⟩ := planned_of_prepare hfresh hrun
  obtain ⟨m, rfl, -, hmade⟩ := hplan.maps_made.exists_of_fakeroot hroot
  obtain ⟨subuid, subgid, users, groups, hsubuid, hsubgid, husers, hgroups, huid, hgid⟩ :=
    Draft.subordinateMaps_ok hmade
  obtain ⟨hfileuid, hfilegid⟩ := ranges_of_loadPolicy hplan.files_loaded
  obtain ⟨hplanuid, hplangid⟩ := Prod.mk.inj hplan.maps_eq
  rw [hfileuid] at hsubuid
  rw [hfilegid] at hsubgid
  exact ⟨users, groups, ⟨subuid, hsubuid, husers⟩, ⟨subgid, hsubgid, hgroups⟩,
    hplanuid.trans huid, hplangid.trans hgid⟩

/-- A privileged launch that is ready has read a policy of the superuser's, and a
capability table of the superuser's if there is one.  The maps of a fake superuser are
made of the two files of ranges whoever owns them, so everything that counted was the
superuser's if and only if these files were.  Where the policy or the table is not to be
trusted, the launch ends over that file before anything is done. -/
theorem trusted_inputs_iff (hsuid : l.facts.isSuid = true) :
    (∀ r h', (l.prepare c).perform h = (.ok r, h') →
      (l.adminPaths c).Trusted h ∧
      ((∀ input : AdminInput, input.Counts h (l.adminPaths c) c →
          h.RootOwns (input.path (l.adminPaths c))) ↔
        (c.instanceJoin = none → c.fakeroot = true →
          h.RootOwns l.sources.subuid ∧ h.RootOwns l.sources.subgid)) ∧
      (c.instanceJoin = none → c.fakeroot = true →
        ∃ users groups, SubIdRange.IsSelected h l.sources.subuid l.facts.caller users ∧
          SubIdRange.IsSelected h l.sources.subgid l.facts.caller groups ∧
          r.plan.uidMap = SubordinateMaps.mapOf l.facts.caller.uid users ∧
          r.plan.gidMap = SubordinateMaps.mapOf l.facts.caller.gid groups)) ∧
    (¬ (l.adminPaths c).Trusted h →
      ∃ e, (l.prepare c).perform h = (.error e, h) ∧
        (h.Distrusts (l.adminPaths c).config e ∨
          h.exists? (l.adminPaths c).capability = true ∧
            h.Distrusts (l.adminPaths c).capability e)) := by
  obtain ⟨hsubuid, hsubgid⟩ := AdminPaths.ranges_override l.sources c.configurationFile
    l.facts.suidInstall l.facts.caller.euid
  constructor
  · intro r h' hrun
    obtain ⟨files, hfiles, -⟩ := prepare_ok.mp hrun
    have htrusted := trusted_of_loadPolicy hsuid hfiles
    refine ⟨htrusted, ?_, fun hfresh hroot => maps_of_ranges hfresh hroot hrun⟩
    rw [← hsubuid, ← hsubgid]
    constructor
    · intro hall hfresh hroot
      exact ⟨hall .subuid ⟨hfresh, hroot⟩, hall .subgid ⟨hfresh, hroot⟩⟩
    · intro hranges input hcounts
      cases input with
      | policy => exact htrusted.config
      | capabilities => exact htrusted.capability hcounts
      | subuid => exact (hranges hcounts.1 hcounts.2).1
      | subgid => exact (hranges hcounts.1 hcounts.2).2
  · intro hnot
    obtain ⟨e, hload, hdistrust⟩ := AdminPaths.load_error_of_not_trusted hnot
    refine ⟨e, perform_prepare_of_loadPolicy_error ?_, hdistrust⟩
    simp only [loadPolicy, hsuid]
    rw [adminPaths] at hload
    rw [hload]
    rfl

/-! ## Ranges in a file of the caller's -/

/-- A host on which a user owns the file of the ranges that are set aside for it. -/
def ownRangesHost : Host :=
  let plain := Host.plain ⟨1000, 1000, 1000, []⟩
    [["etc"], ["etc", "stagehand"], ["image"]]
    [(["etc", "stagehand", "stagehand.yaml"], ""), (["etc", "subgid"], "1000:200000:65536\n")]
  { plain with
    tree := plain.tree.put ["etc", "subuid"]
      ⟨.file (Text.octets "1000:0:1000\n"), 1000, 1000, false⟩ }

/-- A request to be a fake superuser. -/
def rootOfOwnRanges : String :=
  "\x7b\"image\":\"/image\",\"process\":\x7b\"args\":[\"sh\"]\x7d,\"fakeroot\":true\x7d"

theorem prepare_rootOfOwnRanges :
    ∃ c r h', LaunchConfig.parse rootOfOwnRanges = .ok c ∧ c.instanceJoin = none ∧
      c.fakeroot = true ∧
      ((onHost ownRangesHost true).prepare c).perform ownRangesHost = (.ok r, h') ∧
      r.plan.uidMap = [⟨0, 1000, 1⟩, ⟨1, 0, 1000⟩] := by
  obtain ⟨c, hparse, hc⟩ : ∃ c, LaunchConfig.parse rootOfOwnRanges = .ok c ∧
      (c.instanceJoin, c.fakeroot,
        (((onHost ownRangesHost true).prepare c).perform ownRangesHost).1.toOption.map
          fun r => r.plan.uidMap) =
      (none, true, some [⟨0, 1000, 1⟩, ⟨1, 0, 1000⟩]) :=
    Error.exists_ok_of_map (by decide +kernel)
  simp only [Prod.mk.injEq] at hc
  obtain ⟨hfresh, hroot, hready⟩ := hc
  obtain ⟨r, h', hrun, hmap⟩ := Action.exists_perform_ok hready
  exact ⟨c, r, h', hparse, hfresh, hroot, hrun, hmap⟩

theorem not_rootOwns_ownRanges :
    ¬ ownRangesHost.RootOwns (onHost ownRangesHost true).sources.subuid := by
  rintro ⟨inode, hstat, hroot⟩
  have howner : (ownRangesHost.stat (onHost ownRangesHost true).sources.subuid).toOption.map
      Inode.uid = some 1000 := by decide +kernel
  rw [hstat] at howner
  have huid : inode.uid = 1000 := Option.some.inj howner
  rw [hroot] at huid
  revert huid
  decide

/-- The policy of this launch is the superuser's, and its maps are made of ranges that are
not. -/
theorem trusted_inputs_iff_rootOfOwnRanges :
    ∃ c r h', (onHost ownRangesHost true).facts.isSuid = true ∧
      ((onHost ownRangesHost true).prepare c).perform ownRangesHost = (.ok r, h') ∧
      ((onHost ownRangesHost true).adminPaths c).Trusted ownRangesHost ∧
      ¬ (∀ input : AdminInput,
        input.Counts ownRangesHost ((onHost ownRangesHost true).adminPaths c) c →
          ownRangesHost.RootOwns (input.path ((onHost ownRangesHost true).adminPaths c))) ∧
      ∃ users, SubIdRange.IsSelected ownRangesHost (onHost ownRangesHost true).sources.subuid
          (onHost ownRangesHost true).facts.caller users ∧
        r.plan.uidMap =
          SubordinateMaps.mapOf (onHost ownRangesHost true).facts.caller.uid users := by
  obtain ⟨c, r, h', -, hfresh, hroot, hrun, -⟩ := prepare_rootOfOwnRanges
  have hsuid : (onHost ownRangesHost true).facts.isSuid = true := rfl
  obtain ⟨htrusted, hall, hmaps⟩ :=
    (trusted_inputs_iff (c := c) (h := ownRangesHost) hsuid).1 r h' hrun
  obtain ⟨users, groups, husers, -, huid, -⟩ := hmaps hfresh hroot
  refine ⟨c, r, h', hsuid, hrun, htrusted, ?_, users, husers, huid⟩
  intro howned
  exact not_rootOwns_ownRanges (hall.mp howned hfresh hroot).1

/-- A privileged launch is ready although the file of ranges that its maps were made of is
its caller's own, and the superuser of the host is mapped. -/
theorem own_ranges_used :
    ∃ c r h', LaunchConfig.parse rootOfOwnRanges = .ok c ∧ c.instanceJoin = none ∧
      c.fakeroot = true ∧ (onHost ownRangesHost true).facts.isSuid = true ∧
      ((onHost ownRangesHost true).prepare c).perform ownRangesHost = (.ok r, h') ∧
      ¬ ownRangesHost.RootOwns (onHost ownRangesHost true).sources.subuid ∧
      ∃ line ∈ r.plan.uidMap, line.hostId = 0 := by
  obtain ⟨c, r, h', hparse, hfresh, hroot, hrun, hmap⟩ := prepare_rootOfOwnRanges
  refine ⟨c, r, h', hparse, hfresh, hroot, rfl, hrun, not_rootOwns_ownRanges, ⟨1, 0, 1000⟩,
    ?_, rfl⟩
  rw [hmap]
  exact List.mem_cons_of_mem _ (List.mem_singleton_self _)

end Launcher
end ContainerLaunch
