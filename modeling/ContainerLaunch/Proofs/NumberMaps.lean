import ContainerLaunch.Proofs.Launch.Planned
/-!
# Whose numbers a container maps

The maps that are written for a user namespace come from three places.  A fake
superuser is mapped onto the caller and onto the ranges that the administrator's files
set aside for it, a user namespace without a map onto the caller alone.  Maps that a
request brings stay as they are: nothing asks whose numbers they lead to.
-/

namespace ContainerLaunch

/-! ## What a caller may map -/

namespace SubIdRange

/-- Whether a line of a map leads to numbers of a range only. -/
def Covers (range : SubIdRange) (m : IdMapLine) : Prop :=
  range.start.toNat ≤ m.hostId.toNat ∧
    m.hostId.toNat + m.size.toNat ≤ range.start.toNat + range.count.toNat

/-- The range that a file of the administrator sets aside for a caller. -/
def IsSelected (h : Host) (file : Path) (caller : Caller) (range : SubIdRange) : Prop :=
  ∃ ranges, load h file = .ok ranges ∧ first? ranges caller.username caller.uid = some range

end SubIdRange

namespace IdMapLine

/-- A line that leads to a number of the caller, or to numbers that a file of the
administrator sets aside for it. -/
def IsGranted (h : Host) (file : Path) (caller : Caller) (id : UInt32) (m : IdMapLine) : Prop :=
  m.hostId = id ∧ m.size = 1 ∨
    ∃ range, SubIdRange.IsSelected h file caller range ∧ range.Covers m

variable {h : Host} {file : Path} {caller : Caller} {id : UInt32} {m : IdMapLine}

theorem isGranted_of_mem_mapOf {range : SubIdRange}
    (hselected : SubIdRange.IsSelected h file caller range)
    (hm : m ∈ SubordinateMaps.mapOf id range) : m.IsGranted h file caller id := by
  simp only [SubordinateMaps.mapOf, List.mem_cons, List.not_mem_nil, or_false] at hm
  rcases hm with rfl | rfl
  · exact Or.inl ⟨rfl, rfl⟩
  · exact Or.inr ⟨range, hselected, Nat.le_refl _, Nat.le_refl _⟩

theorem isGranted_of_mem_single (hm : m ∈ [single id]) : m.IsGranted h file caller id := by
  rw [List.mem_singleton] at hm
  subst hm
  exact Or.inl ⟨rfl, rfl⟩

end IdMapLine

/-- Whether a request brings maps of its own that nothing replaces: those of a fake
superuser do, and so do the caller's own numbers where a user namespace comes without a
map of users. -/
def LaunchConfig.bringsMaps (c : LaunchConfig) : Bool :=
  !c.fakeroot && (!c.uidMappings.isEmpty || (!c.namespaces.has .user && !c.gidMappings.isEmpty))

/-! ## The files of ranges -/

namespace AdminPaths

variable {h : Host} {s : AdminPaths} {isSuid : Bool} {files : AdminFiles}

theorem ranges_of_load (hload : s.load h isSuid = .ok files) :
    files.subuid = s.subuid ∧ files.subgid = s.subgid := by
  have hfiles : ∀ {policy : Except Error Policy} {table : Except Error CapabilityTable},
      (do return ⟨← policy, ← table, s.subuid, s.subgid⟩ : Except Error AdminFiles) =
        .ok files → files.subuid = s.subuid ∧ files.subgid = s.subgid := by
    intro policy table hdone
    obtain ⟨_, -, hdone⟩ := Error.bind_eq_ok.mp hdone
    obtain ⟨_, -, hdone⟩ := Error.bind_eq_ok.mp hdone
    rw [← Except.ok.inj hdone]
    exact ⟨rfl, rfl⟩
  unfold load at hload
  cases isSuid with
  | true =>
      obtain ⟨_, -, hload⟩ := Error.bind_eq_ok.mp hload
      exact hfiles hload
  | false => exact hfiles hload

theorem ranges_override (s : AdminPaths) (file : Option Path) (suidInstall : Bool)
    (euid : UInt32) :
    (s.override file suidInstall euid).subuid = s.subuid ∧
      (s.override file suidInstall euid).subgid = s.subgid := by
  unfold override
  split
  · split <;> exact ⟨rfl, rfl⟩
  · exact ⟨rfl, rfl⟩

end AdminPaths

/-! ## What a plan maps -/

namespace Launcher

variable {l : Launcher} {c : LaunchConfig} {h h' : Host} {r : ReadyLaunch} {files : AdminFiles}

/-- Only the file of the policy can be another one than the launcher was set up with. -/
theorem ranges_of_loadPolicy (hfiles : l.loadPolicy c h = .ok files) :
    files.subuid = l.sources.subuid ∧ files.subgid = l.sources.subgid := by
  obtain ⟨loaded, hload, hallowed⟩ := Error.bind_eq_ok.mp hfiles
  have hsame : loaded = files := by
    split at hallowed
    · cases hallowed
    · exact Except.ok.inj hallowed
  have hranges := AdminPaths.ranges_of_load hload
  have hoverride := AdminPaths.ranges_override l.sources c.configurationFile l.facts.suidInstall
    l.facts.caller.euid
  rw [hsame, hoverride.1, hoverride.2] at hranges
  exact hranges

/-- The maps of a fake superuser are granted line by line. -/
theorem Planned.granted_of_some {m : SubordinateMaps}
    (hplan : Planned l c h r files (some m)) :
    (∀ line ∈ r.plan.uidMap,
      line.IsGranted h l.sources.subuid l.facts.caller l.facts.caller.uid) ∧
    ∀ line ∈ r.plan.gidMap,
      line.IsGranted h l.sources.subgid l.facts.caller l.facts.caller.gid := by
  obtain ⟨subuid, subgid, users, groups, hsubuid, hsubgid, husers, hgroups, huid, hgid⟩ :=
    Draft.subordinateMaps_ok hplan.maps_made.2.2
  obtain ⟨hfileuid, hfilegid⟩ := ranges_of_loadPolicy hplan.files_loaded
  obtain ⟨hplanuid, hplangid⟩ := Prod.mk.inj hplan.maps_eq
  rw [hfileuid] at hsubuid
  rw [hfilegid] at hsubgid
  rw [hplanuid, hplangid, huid, hgid]
  constructor
  · intro line hline
    exact IdMapLine.isGranted_of_mem_mapOf ⟨subuid, hsubuid, husers⟩ hline
  · intro line hline
    exact IdMapLine.isGranted_of_mem_mapOf ⟨subgid, hsubgid, hgroups⟩ hline

/-- Nobody but a fake superuser gets other maps than the caller's own numbers and those of
the request. -/
theorem Planned.maps_of_none (hplan : Planned l c h r files none) :
    (r.plan.uidMap, r.plan.gidMap) =
      if c.bringsMaps || !c.namespaces.has .user then (c.uidMappings, c.gidMappings)
      else ([.single l.facts.caller.uid], [.single l.facts.caller.gid]) := by
  have hroot : c.fakeroot = false := hplan.maps_made
  rw [hplan.maps_eq]
  simp only [Draft.mapsOf, LaunchConfig.bringsMaps, hroot]
  cases c.namespaces.has .user <;> cases c.uidMappings <;> simp

/-- Without maps in the request a plan leads only to the caller's own numbers and to those
that the administrator's files set aside for it.  Maps in the request reach the plan as
they are. -/
theorem maps_granted_or_requested (hfresh : c.instanceJoin = none)
    (hrun : (l.prepare c).perform h = (.ok r, h')) :
    (c.bringsMaps = false →
      (∀ line ∈ r.plan.uidMap,
        line.IsGranted h l.sources.subuid l.facts.caller l.facts.caller.uid) ∧
      ∀ line ∈ r.plan.gidMap,
        line.IsGranted h l.sources.subgid l.facts.caller l.facts.caller.gid) ∧
    (c.bringsMaps = true →
      r.plan.uidMap = c.uidMappings ∧ r.plan.gidMap = c.gidMappings) := by
  obtain ⟨files, maps, hplan⟩ := planned_of_prepare hfresh hrun
  cases maps with
  | some m =>
      have hroot : c.fakeroot = true := hplan.maps_made.1
      refine ⟨fun _ => hplan.granted_of_some, ?_⟩
      intro hbrings
      simp [LaunchConfig.bringsMaps, hroot] at hbrings
  | none =>
      have hmaps := hplan.maps_of_none
      constructor
      · intro hbrings
        cases huser : c.namespaces.has .user with
        | true =>
            rw [hbrings, huser] at hmaps
            obtain ⟨huid, hgid⟩ := Prod.mk.inj hmaps
            rw [huid, hgid]
            exact ⟨fun _ => IdMapLine.isGranted_of_mem_single,
              fun _ => IdMapLine.isGranted_of_mem_single⟩
        | false =>
            have hroot : c.fakeroot = false := hplan.maps_made
            have hempty : c.uidMappings = [] ∧ c.gidMappings = [] := by
              simpa [LaunchConfig.bringsMaps, hroot, huser] using hbrings
            -- the maps of the request, which are both empty
            rw [huser, Bool.not_false, Bool.or_true, if_pos rfl, hempty.1, hempty.2] at hmaps
            obtain ⟨huid, hgid⟩ := Prod.mk.inj hmaps
            rw [huid, hgid]
            exact ⟨fun _ hline => absurd hline List.not_mem_nil,
              fun _ hline => absurd hline List.not_mem_nil⟩
      · intro hbrings
        rw [hbrings, Bool.true_or, if_pos rfl] at hmaps
        exact Prod.mk.inj hmaps

/-! ## A fake superuser, and a map of somebody else's number -/

def rangesHost : Host :=
  .plain ⟨1000, 1000, 1000, []⟩
    [["etc"], ["etc", "stagehand"], ["image"]]
    [(["etc", "stagehand", "stagehand.yaml"], ""), (["etc", "subuid"], "1000:100000:65536\n"),
      (["etc", "subgid"], "1000:200000:65536\n")]

/-- A request to be a fake superuser, in which maps count for nothing. -/
def fakeSuperuser : String :=
  "\x7b\"image\":\"/image\",\"process\":\x7b\"args\":[\"sh\"]\x7d,\"fakeroot\":true," ++
    "\"uidMappings\":[\x7b\"containerId\":0,\"hostId\":0,\"size\":1\x7d]\x7d"

/-- A request for a user namespace in which the superuser of the host is mapped. -/
def mappedSuperuser : String :=
  "\x7b\"image\":\"/image\",\"process\":\x7b\"args\":[\"sh\"]\x7d," ++
    "\"namespaces\":[\x7b\"type\":\"user\"\x7d]," ++
    "\"uidMappings\":[\x7b\"containerId\":0,\"hostId\":0,\"size\":1\x7d]\x7d"

theorem prepare_fakeSuperuser :
    ∃ c r h', LaunchConfig.parse fakeSuperuser = .ok c ∧ c.instanceJoin = none ∧
      c.bringsMaps = false ∧
      ((onHost rangesHost true).prepare c).perform rangesHost = (.ok r, h') ∧
      r.plan.uidMap = [⟨0, 1000, 1⟩, ⟨1, 100000, 65536⟩] := by
  obtain ⟨c, hparse, hc⟩ : ∃ c, LaunchConfig.parse fakeSuperuser = .ok c ∧
      (c.instanceJoin, c.bringsMaps,
        (((onHost rangesHost true).prepare c).perform rangesHost).1.toOption.map
          fun r => r.plan.uidMap) =
      (none, false, some [⟨0, 1000, 1⟩, ⟨1, 100000, 65536⟩]) :=
    Error.exists_ok_of_map (by decide +kernel)
  simp only [Prod.mk.injEq] at hc
  obtain ⟨hfresh, hbrings, hready⟩ := hc
  obtain ⟨r, h', hrun, huid⟩ := Action.exists_perform_ok hready
  exact ⟨c, r, h', hparse, hfresh, hbrings, hrun, huid⟩

theorem maps_granted_or_requested_fakeSuperuser :
    ∃ c r h', c.instanceJoin = none ∧ c.bringsMaps = false ∧
      ((onHost rangesHost true).prepare c).perform rangesHost = (.ok r, h') ∧
      r.plan.uidMap = [⟨0, 1000, 1⟩, ⟨1, 100000, 65536⟩] ∧
      ∀ line ∈ r.plan.uidMap, line.IsGranted rangesHost (onHost rangesHost true).sources.subuid
        (onHost rangesHost true).facts.caller (onHost rangesHost true).facts.caller.uid := by
  obtain ⟨c, r, h', -, hfresh, hbrings, hrun, huid⟩ := prepare_fakeSuperuser
  exact ⟨c, r, h', hfresh, hbrings, hrun, huid,
    ((maps_granted_or_requested hfresh hrun).1 hbrings).1⟩

theorem prepare_mappedSuperuser :
    ∃ c r h', LaunchConfig.parse mappedSuperuser = .ok c ∧ c.instanceJoin = none ∧
      ((onHost rangesHost true).prepare c).perform rangesHost = (.ok r, h') ∧
      r.plan.uidMap = [⟨0, 0, 1⟩] := by
  obtain ⟨c, hparse, hc⟩ : ∃ c, LaunchConfig.parse mappedSuperuser = .ok c ∧
      (c.instanceJoin,
        (((onHost rangesHost true).prepare c).perform rangesHost).1.toOption.map
          fun r => r.plan.uidMap) =
      (none, some [⟨0, 0, 1⟩]) :=
    Error.exists_ok_of_map (by decide +kernel)
  simp only [Prod.mk.injEq] at hc
  obtain ⟨hfresh, hready⟩ := hc
  obtain ⟨r, h', hrun, huid⟩ := Action.exists_perform_ok hready
  exact ⟨c, r, h', hparse, hfresh, hrun, huid⟩

/-- A caller who is not the superuser gets the superuser's number mapped, which is
neither its own nor set aside for it. -/
theorem requested_number_mapped :
    ∃ c r h', LaunchConfig.parse mappedSuperuser = .ok c ∧ c.instanceJoin = none ∧
      (onHost rangesHost true).facts.caller.uid ≠ 0 ∧
      ((onHost rangesHost true).prepare c).perform rangesHost = (.ok r, h') ∧
      ∃ line ∈ r.plan.uidMap, ¬ line.IsGranted rangesHost
        (onHost rangesHost true).sources.subuid (onHost rangesHost true).facts.caller
        (onHost rangesHost true).facts.caller.uid := by
  obtain ⟨c, r, h', hparse, hfresh, hrun, huid⟩ := prepare_mappedSuperuser
  refine ⟨c, r, h', hparse, hfresh, by decide, hrun, ⟨0, 0, 1⟩, ?_, ?_⟩
  · rw [huid]
    exact List.mem_singleton_self _
  · rintro (⟨hown, -⟩ | ⟨range, ⟨ranges, hload, hselected⟩, hcovers, -⟩)
    · revert hown
      decide
    · have hrange : ((SubIdRange.load rangesHost (onHost rangesHost true).sources.subuid
          ).toOption.map fun ranges => (SubIdRange.first? ranges
            (onHost rangesHost true).facts.caller.username
            (onHost rangesHost true).facts.caller.uid).map SubIdRange.start) =
          some (some 100000) := by decide +kernel
      rw [hload] at hrange
      simp only [Except.toOption, Option.map_some, hselected, Option.some.injEq] at hrange
      rw [hrange] at hcovers
      revert hcovers
      decide

end Launcher
end ContainerLaunch
