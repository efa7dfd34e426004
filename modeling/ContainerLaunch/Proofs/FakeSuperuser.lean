import ContainerLaunch.Proofs.GivenUpPrivileges
import ContainerLaunch.Proofs.HelperPrograms
/-!
# What a fake superuser's launch comes to

A launch as a fake superuser replaces whatever maps and whatever target the request brings:
the caller becomes the superuser of a new user namespace, in which the ranges that the
administrator's files set aside for the caller are mapped as well.  Without such ranges, or
where the policy has no user namespaces, there is no such launch.
-/

namespace ContainerLaunch

/-- A plan makes a caller the superuser of a new user namespace, in which two ranges are
mapped beside the caller's own numbers.  The launcher writes the maps itself if it is
privileged; otherwise two helpers do. -/
structure Plan.RootsCaller (p : Plan) (l : Launcher) (h : Host) (users groups : SubIdRange) :
    Prop where
  uidMap : p.uidMap = [⟨0, l.facts.caller.uid, 1⟩, ⟨1, users.start, users.count⟩]
  gidMap : p.gidMap = [⟨0, l.facts.caller.gid, 1⟩, ⟨1, groups.start, groups.count⟩]
  targetUid : p.targetUid = 0
  targetGids : p.targetGids = [0]
  user_created : NamespaceKind.user.IsCreatedBy p.creationFlags
  hybridWorkflow : p.hybridWorkflow = true
  allowSetgroups : p.allowSetgroups = true
  privileged : l.facts.isSuid = true → p.newuidmap = none ∧ p.newgidmap = none
  unprivileged : l.facts.isSuid = false → ∃ newuidmap newgidmap,
    p.newuidmap = some newuidmap ∧ p.newgidmap = some newgidmap ∧
      Helper.Suitable h "newuidmap" l.searchPath newuidmap ∧
      Helper.Suitable h "newgidmap" l.searchPath newgidmap

/-! ## Who writes the maps -/

/-- What the plan of a fake superuser says about who writes its maps. -/
theorem Draft.freshWith_mapWriting (l : Launcher) (policy : AdminFiles) (d : Draft) (targetIds : Bool)
    (maps : SubordinateMaps) (seccomp : Option Json) :
    (d.freshWith l policy targetIds (some maps) seccomp).plan.newuidmap =
        (helpersOf maps.mode).1.or d.plan.newuidmap ∧
      (d.freshWith l policy targetIds (some maps) seccomp).plan.newgidmap =
        (helpersOf maps.mode).2.or d.plan.newgidmap ∧
      (d.freshWith l policy targetIds (some maps) seccomp).plan.hybridWorkflow = true ∧
      (d.freshWith l policy targetIds (some maps) seccomp).plan.allowSetgroups = true := by
  simp only [freshWith, secured, withNamespacePlan]
  rw [Plan.withJoins_eq]
  exact ⟨rfl, rfl, rfl, rfl⟩

namespace Launcher

variable {l : Launcher} {c : LaunchConfig} {h h' : Host} {r : ReadyLaunch} {files : AdminFiles}

/-- No draft has helpers when it is opened. -/
theorem opening_helpers (l : Launcher) (c : LaunchConfig) (h : Host) :
    (opening l c h).plan.newuidmap = none ∧ (opening l c h).plan.newgidmap = none := by
  rw [opening_plan]
  split <;> exact ⟨rfl, rfl⟩

/-- The launch of a fake superuser that is ready has maps, and its plan says who writes
them. -/
theorem mapWriting_of_prepare (hfresh : c.instanceJoin = none) (hroot : c.fakeroot = true)
    (hrun : (l.prepare c).perform h = (.ok r, h')) :
    ∃ files maps, l.loadPolicy c h = .ok files ∧ files.policy.allowUserNs = true ∧
      Draft.subordinateMaps l files h = .ok maps ∧
      r.plan.newuidmap = (Draft.helpersOf maps.mode).1 ∧
      r.plan.newgidmap = (Draft.helpersOf maps.mode).2 ∧
      r.plan.hybridWorkflow = true ∧ r.plan.allowSetgroups = true := by
  obtain ⟨files, user, d₁, h₁, d₂, h₂, pinned, handles, ends, hfiles, hmade, himages, rfl⟩ :=
    prepare_fresh_ok hfresh hrun
  obtain ⟨-, -, maps, seccomp, hmaps, -, rfl, -⟩ := Draft.fresh_ok.mp hmade
  have hmaps : Draft.FakerootMaps l files h c maps := fakerootMaps_opening hmaps
  obtain ⟨m, rfl, hallow, hmade⟩ := hmaps.exists_of_fakeroot hroot
  have hplan := Draft.plan_withImages himages
  obtain ⟨huid, hgid, hhybrid, hsetgroups⟩ := Draft.freshWith_mapWriting l files
    ((opening l c h).withUser user) (Draft.asksForTarget c l.facts.caller) m seccomp
  obtain ⟨hnouid, hnogid⟩ := opening_helpers l c h
  refine ⟨files, m, hfiles, hallow, hmade, (congrArg Plan.newuidmap hplan).trans ?_,
    (congrArg Plan.newgidmap hplan).trans ?_, (congrArg Plan.hybridWorkflow hplan).trans hhybrid,
    (congrArg Plan.allowSetgroups hplan).trans hsetgroups⟩
  · exact huid.trans ((congrArg _ hnouid).trans Option.or_none)
  · exact hgid.trans ((congrArg _ hnogid).trans Option.or_none)

/-- A fake superuser's user namespace is created, whatever the request says of it. -/
theorem user_created_of_prepare (hfresh : c.instanceJoin = none) (hroot : c.fakeroot = true)
    (hrun : (l.prepare c).perform h = (.ok r, h')) :
    NamespaceKind.user.IsCreatedBy r.plan.creationFlags := by
  obtain ⟨files, maps, hplan⟩ := planned_of_prepare hfresh hrun
  obtain ⟨m, rfl, -, -⟩ := hplan.maps_made.exists_of_fakeroot hroot
  rw [hplan.creationFlags_eq, NamespaceList.isCreatedBy_creationFlags, hplan.namespaces_eq]
  refine ⟨.create .user, ?_, rfl⟩
  have hkind := NamespaceList.ofKind_add_create (l.namespacesLeft files.policy c) .user
  rw [Draft.rootedNamespaces, hkind]
  exact List.mem_cons_self

/-- Whatever ranges are mapped, the rest of the plan of a fake superuser is the same. -/
theorem rootsCaller_of_prepare {users groups : SubIdRange} (hfresh : c.instanceJoin = none)
    (hroot : c.fakeroot = true) (hrun : (l.prepare c).perform h = (.ok r, h'))
    (huid : r.plan.uidMap = SubordinateMaps.mapOf l.facts.caller.uid users)
    (hgid : r.plan.gidMap = SubordinateMaps.mapOf l.facts.caller.gid groups) :
    r.plan.RootsCaller l h users groups := by
  obtain ⟨files, maps, -, -, hmade, hnewuid, hnewgid, hhybrid, hsetgroups⟩ :=
    mapWriting_of_prepare hfresh hroot hrun
  obtain ⟨-, htargetUid, htargetGids⟩ := fresh_privileges hfresh hrun
  rw [hroot] at htargetUid htargetGids
  have hwriter := Helper.mapWriter_ok.mp (Draft.mapWriter_of_subordinateMaps hmade)
  refine ⟨huid, hgid, htargetUid, htargetGids, user_created_of_prepare hfresh hroot hrun, hhybrid,
    hsetgroups, ?_, ?_⟩
  · intro hsuid
    rw [hsuid, if_pos rfl] at hwriter
    rw [hwriter] at hnewuid hnewgid
    exact ⟨hnewuid, hnewgid⟩
  · intro hsuid
    rw [hsuid, if_neg Bool.false_ne_true] at hwriter
    obtain ⟨newuidmap, newgidmap, hfounduid, hfoundgid, hmode⟩ := hwriter
    rw [hmode] at hnewuid hnewgid
    exact ⟨newuidmap, newgidmap, hnewuid, hnewgid, Helper.suitable_of_find hfounduid,
      Helper.suitable_of_find hfoundgid⟩

/-! ## The ranges that a launch needs -/

/-- No line of a file describes a range for a caller, or the file cannot be read. -/
def SetsNothingAside (h : Host) (file : Path) (caller : Caller) : Prop :=
  ∀ content, h.readText file = .ok content →
    SubIdRange.NoneFor content caller.username caller.uid

/-- What a file says is set aside first for a caller. -/
def SetsAside (h : Host) (file : Path) (caller : Caller) (range : SubIdRange) : Prop :=
  ∃ content, h.readText file = .ok content ∧
    SubIdRange.FirstFor content caller.username caller.uid range

theorem isSelected_iff {file : Path} {caller : Caller} {range : SubIdRange} :
    SubIdRange.IsSelected h file caller range ↔ SetsAside h file caller range := by
  simp only [SubIdRange.IsSelected, SetsAside, SubIdRange.load_ok,
    ← SubIdRange.first?_parse_eq_some_iff]
  constructor
  · rintro ⟨_, ⟨content, hread, rfl⟩, hfirst⟩
    exact ⟨content, hread, hfirst⟩
  · rintro ⟨content, hread, hfirst⟩
    exact ⟨_, ⟨content, hread, rfl⟩, hfirst⟩

theorem not_setsAside_of_setsNothingAside {file : Path} {caller : Caller} {range : SubIdRange}
    (hnothing : SetsNothingAside h file caller) : ¬ SetsAside h file caller range := by
  rintro ⟨content, hread, hfirst⟩
  have hselected := SubIdRange.first?_parse_eq_some_iff.mpr hfirst
  rw [SubIdRange.first?_parse_eq_none_iff.mpr (hnothing content hread)] at hselected
  cases hselected

/-- The launch of a fake superuser that is ready makes the caller the superuser of a new user
namespace, with the ranges that the first lines for the caller describe, whatever else the
request brings.  If the policy has no user namespaces, or if one of the two files sets nothing
aside for the caller, the launch is never ready. -/
theorem fake_superuser_planned (hfresh : c.instanceJoin = none) (hroot : c.fakeroot = true) :
    (∀ r h', (l.prepare c).perform h = (.ok r, h') →
      ∃ users groups, SetsAside h l.sources.subuid l.facts.caller users ∧
        SetsAside h l.sources.subgid l.facts.caller groups ∧
        r.plan.RootsCaller l h users groups) ∧
    ((∃ files, l.loadPolicy c h = .ok files ∧ files.policy.allowUserNs = false) ∨
        SetsNothingAside h l.sources.subuid l.facts.caller ∨
        SetsNothingAside h l.sources.subgid l.facts.caller →
      ∃ e h', (l.prepare c).perform h = (.error e, h')) := by
  have hready : ∀ r h', (l.prepare c).perform h = (.ok r, h') →
      ∃ users groups, SetsAside h l.sources.subuid l.facts.caller users ∧
        SetsAside h l.sources.subgid l.facts.caller groups ∧
        r.plan.RootsCaller l h users groups := by
    intro r h' hrun
    obtain ⟨users, groups, husers, hgroups, huid, hgid⟩ := maps_of_ranges hfresh hroot hrun
    exact ⟨users, groups, isSelected_iff.mp husers, isSelected_iff.mp hgroups,
      rootsCaller_of_prepare hfresh hroot hrun huid hgid⟩
  refine ⟨hready, ?_⟩
  intro hlacks
  obtain ⟨⟨e | r, h'⟩, hrun⟩ : ∃ x, (l.prepare c).perform h = x := ⟨_, rfl⟩
  · exact ⟨e, h', hrun⟩
  · -- a launch that is ready lacks none of the three
    exfalso
    obtain ⟨users, groups, husers, hgroups, -⟩ := hready r h' hrun
    obtain ⟨files, -, hfiles, hallow, -⟩ := mapWriting_of_prepare hfresh hroot hrun
    rcases hlacks with ⟨files', hfiles', hforbidden⟩ | hnothing | hnothing
    · obtain rfl := Except.ok.inj (hfiles.symm.trans hfiles')
      rw [hallow] at hforbidden
      cases hforbidden
    · exact not_setsAside_of_setsNothingAside hnothing husers
    · exact not_setsAside_of_setsNothingAside hnothing hgroups

/-! ## Maps written by helpers -/

/-- A host with files of ranges in which the first lines set nothing aside, and with helpers
that stand behind files that are no programs. -/
def helpersHost : Host :=
  let plain := Host.plain ⟨1000, 1000, 1000, []⟩
    [["etc"], ["etc", "stagehand"], ["usr"], ["usr", "sbin"], ["usr", "bin"], ["image"]]
    [(["etc", "stagehand", "stagehand.yaml"], ""),
      (["etc", "subuid"], "#1000:5:5\n1000:7:0\n1000:100000:65536\n1000:1:1\n"),
      (["etc", "subgid"], "1000:1\n1000:200000:65536:x\n"),
      (["usr", "sbin", "newuidmap"], ""), (["usr", "sbin", "newgidmap"], "")]
  { plain with
    tree := (plain.tree.put ["usr", "bin", "newuidmap"] ⟨.file .empty, 0, 0, true⟩).put
      ["usr", "bin", "newgidmap"] ⟨.file .empty, 0, 0, true⟩ }

theorem prepare_helpersHost :
    ∃ c r h', LaunchConfig.parse fakeSuperuser = .ok c ∧ c.instanceJoin = none ∧
      c.fakeroot = true ∧ c.uidMappings = [⟨0, 0, 1⟩] ∧
      ((onHost helpersHost false).prepare c).perform helpersHost = (.ok r, h') ∧
      r.plan.uidMap = [⟨0, 1000, 1⟩, ⟨1, 100000, 65536⟩] := by
  obtain ⟨c, hparse, hc⟩ : ∃ c, LaunchConfig.parse fakeSuperuser = .ok c ∧
      ((c.instanceJoin, c.fakeroot), c.uidMappings,
        (((onHost helpersHost false).prepare c).perform helpersHost).1.toOption.map
          fun r => r.plan.uidMap) =
      ((none, true), [⟨0, 0, 1⟩], some [⟨0, 1000, 1⟩, ⟨1, 100000, 65536⟩]) :=
    Error.exists_ok_of_map (by decide +kernel)
  simp only [Prod.mk.injEq] at hc
  obtain ⟨⟨hfresh, hroot⟩, hmaps, hready⟩ := hc
  obtain ⟨r, h', hrun, huid⟩ := Action.exists_perform_ok hready
  exact ⟨c, r, h', hparse, hfresh, hroot, hmaps, hrun, huid⟩

/-- The request maps the superuser of the host; the plan has the maps of the files instead, and
helpers that are the superuser's. -/
theorem fake_superuser_planned_helpersHost :
    ∃ c r h', c.instanceJoin = none ∧ c.fakeroot = true ∧ c.uidMappings = [⟨0, 0, 1⟩] ∧
      ((onHost helpersHost false).prepare c).perform helpersHost = (.ok r, h') ∧
      r.plan.uidMap = [⟨0, 1000, 1⟩, ⟨1, 100000, 65536⟩] ∧
      (∃ users groups, SetsAside helpersHost (onHost helpersHost false).sources.subuid
          (onHost helpersHost false).facts.caller users ∧
        r.plan.RootsCaller (onHost helpersHost false) helpersHost users groups) ∧
      ∃ newuidmap, r.plan.newuidmap = some newuidmap ∧
        Helper.Suitable helpersHost "newuidmap" none newuidmap := by
  obtain ⟨c, r, h', -, hfresh, hroot, hmaps, hrun, huid⟩ := prepare_helpersHost
  obtain ⟨users, groups, husers, -, hplan⟩ := (fake_superuser_planned hfresh hroot).1 r h' hrun
  obtain ⟨newuidmap, -, hnewuid, -, hsuitable, -⟩ := hplan.unprivileged rfl
  exact ⟨c, r, h', hfresh, hroot, hmaps, hrun, huid, ⟨users, groups, husers, hplan⟩,
    newuidmap, hnewuid, hsuitable⟩

end Launcher
end ContainerLaunch
