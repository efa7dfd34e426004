import ContainerLaunch.Proofs.Launch.Preparation
import ContainerLaunch.Proofs.SetAsideRanges
/-!
# What a plan takes over from a request

The namespaces and the number maps of a new container are settled in several
steps: the policy edits the namespaces, a fake superuser gets a user namespace and
maps, a user namespace without a map gets the caller's own numbers, and the images
come after that.  What all of this leaves in the plan is stated once here.
-/

namespace ContainerLaunch

namespace Draft

variable {l : Launcher} {policy : AdminFiles} {d d' : Draft} {h h' : Host}

/-- A draft whose configuration has the same namespaces as another one and whose plan has
the same namespaces and maps. -/
structure SameIsolation (d d' : Draft) : Prop where
  namespaces : d'.config.namespaces = d.config.namespaces
  creationFlags : d'.plan.creationFlags = d.plan.creationFlags
  joinPaths : d'.plan.joinPaths = d.plan.joinPaths
  uidMap : d'.plan.uidMap = d.plan.uidMap
  gidMap : d'.plan.gidMap = d.plan.gidMap

theorem sameIsolation_of_withImages {p : Policy}
    (hrun : (d.withImages l p).perform h = (.ok d', h')) : SameIsolation d d' := by
  have hplan := plan_withImages hrun
  obtain ⟨outcome, root, overlays, binds, bindPaths, entered, -, henter, rfl⟩ :=
    withImages_ok hrun
  have hnamespaces : entered.config.namespaces = d.config.namespaces := by
    rw [henter.same.1]
    rfl
  refine ⟨hnamespaces, ?_, ?_, ?_, ?_⟩
  all_goals rw [hplan]

/-- The namespaces of a launch, to which a fake superuser adds a new user namespace. -/
def rootedNamespaces (s : NamespaceList) : Option SubordinateMaps → NamespaceList
  | some _ => s.add (.create .user)
  | none => s

theorem ofKind_rootedNamespaces {s : NamespaceList} {maps : Option SubordinateMaps}
    {k : NamespaceKind} (hk : .user ≠ k) : (rootedNamespaces s maps).ofKind k = s.ofKind k := by
  cases maps with
  | none => rfl
  | some maps => exact NamespaceList.ofKind_add hk

/-- The maps of a launch: those of a fake superuser, the caller's own numbers for a
user namespace without a map, and otherwise those of the request. -/
def mapsOf (c : LaunchConfig) (caller : Caller) :
    Option SubordinateMaps → List IdMapLine × List IdMapLine
  | some maps => (maps.uidMap, maps.gidMap)
  | none =>
    if c.namespaces.has .user && c.uidMappings.isEmpty then
      ([.single caller.uid], [.single caller.gid])
    else (c.uidMappings, c.gidMappings)

section FreshWith

variable (l policy d) (targetIds : Bool) (maps : Option SubordinateMaps) (seccomp : Option Json)

theorem freshWith_namespaces :
    (d.freshWith l policy targetIds maps seccomp).config.namespaces =
      rootedNamespaces (d.ruling l policy.policy).namespaces maps := by
  simp only [freshWith, secured, withNamespacePlan]
  rw [withOwnMaps_eq]
  cases maps <;> rfl

theorem freshWith_creationFlags :
    (d.freshWith l policy targetIds maps seccomp).plan.creationFlags =
      (rootedNamespaces (d.ruling l policy.policy).namespaces maps).creationFlags := by
  simp only [freshWith, secured, withNamespacePlan]
  rw [Plan.withJoins_eq]
  cases maps <;> rfl

theorem freshWith_joinPaths (k : NamespaceKind) :
    (d.freshWith l policy targetIds maps seccomp).plan.joinPaths k =
      ((rootedNamespaces (d.ruling l policy.policy).namespaces maps).lastPath k).or
        (d.plan.joinPaths k) := by
  simp only [freshWith, secured, withNamespacePlan]
  rw [Plan.joinPaths_withJoins]
  cases maps <;> rfl

theorem freshWith_maps {c : LaunchConfig} (huid : d.config.uidMappings = c.uidMappings)
    (hgid : d.config.gidMappings = c.gidMappings)
    (huser : (d.ruling l policy.policy).namespaces.has .user = c.namespaces.has .user)
    (hsub : ∀ m, maps = some m → m.uidMap ≠ []) :
    ((d.freshWith l policy targetIds maps seccomp).plan.uidMap,
      (d.freshWith l policy targetIds maps seccomp).plan.gidMap) =
        mapsOf c l.facts.caller maps := by
  simp only [freshWith, secured, withNamespacePlan]
  cases maps with
  | none =>
      simp only [rooted, withOwnMaps, granted, inNamespaces, mapsOf, huid, hgid, huser]
      split <;> rfl
  | some m =>
      have hsome : m.uidMap.isEmpty = false := by simpa using hsub m rfl
      simp [rooted, asFakeroot, withOwnMaps, mapsOf, hsome]

end FreshWith

/-- The maps of a fake superuser are made of the ranges that are set aside for the caller
in the administrator's files. -/
theorem subordinateMaps_ok {maps : SubordinateMaps}
    (hmaps : subordinateMaps l policy h = .ok maps) :
    ∃ subuid subgid users groups,
      SubIdRange.load h policy.subuid = .ok subuid ∧
        SubIdRange.load h policy.subgid = .ok subgid ∧
        SubIdRange.first? subuid l.facts.caller.username l.facts.caller.uid = some users ∧
        SubIdRange.first? subgid l.facts.caller.username l.facts.caller.uid = some groups ∧
        maps.uidMap = SubordinateMaps.mapOf l.facts.caller.uid users ∧
        maps.gidMap = SubordinateMaps.mapOf l.facts.caller.gid groups := by
  obtain ⟨mode, -, hmaps⟩ := Error.bind_eq_ok.mp hmaps
  obtain ⟨subuid, hsubuid, hmaps⟩ := Error.bind_eq_ok.mp hmaps
  obtain ⟨subgid, hsubgid, hmaps⟩ := Error.bind_eq_ok.mp hmaps
  obtain ⟨users, groups, husers, hgroups, rfl⟩ := SubordinateMaps.build_ok.mp hmaps
  exact ⟨subuid, subgid, users, groups, hsubuid, hsubgid, husers, hgroups, rfl, rfl⟩

/-- The maps of a fake superuser are written by whom the launcher has for it. -/
theorem mapWriter_of_subordinateMaps {maps : SubordinateMaps}
    (hmaps : subordinateMaps l policy h = .ok maps) :
    Helper.mapWriter h l.facts.isSuid l.searchPath = .ok maps.mode := by
  obtain ⟨mode, hmode, hmaps⟩ := Error.bind_eq_ok.mp hmaps
  obtain ⟨_, -, hmaps⟩ := Error.bind_eq_ok.mp hmaps
  obtain ⟨_, -, hmaps⟩ := Error.bind_eq_ok.mp hmaps
  obtain ⟨_, _, -, -, rfl⟩ := SubordinateMaps.build_ok.mp hmaps
  exact hmode

end Draft

namespace Launcher

variable {l : Launcher} {c : LaunchConfig} {h h' : Host} {r : ReadyLaunch}

/-- The namespaces of a request that a policy leaves. -/
def namespacesLeft (l : Launcher) (p : Policy) (c : LaunchConfig) : NamespaceList :=
  (c.namespaces.underPolicy p l.facts.suidInstall c.hostname.isSome).namespaces

theorem ruling_opening (p : Policy) (user : ContainerUser) :
    ((opening l c h).withUser user).ruling l p =
      c.namespaces.underPolicy p l.facts.suidInstall c.hostname.isSome := by
  simp only [Draft.ruling, Draft.withUser]
  rw [opening_config]

/-- No policy takes a user or network namespace out; one that is switched off ends the
launch. -/
theorem ofKind_namespacesLeft (p : Policy) {k : NamespaceKind} (hk : k = .user ∨ k = .network) :
    (l.namespacesLeft p c).ofKind k = c.namespaces.ofKind k := by
  apply NamespaceList.ofKind_underPolicy
  all_goals
    rintro rfl
    simp at hk

/-- What the plan of a new container takes over from its request, under the
administrator's files and with the maps of a fake superuser. -/
structure Planned (l : Launcher) (c : LaunchConfig) (h : Host) (r : ReadyLaunch)
    (files : AdminFiles) (maps : Option SubordinateMaps) : Prop where
  files_loaded : l.loadPolicy c h = .ok files
  verdict_ok : (c.namespaces.underPolicy files.policy l.facts.suidInstall
    c.hostname.isSome).verdict = .ok ()
  network_authorized : ∃ joined, (l.namespacesLeft files.policy c).authorizeNetwork h
    files.policy l.facts.caller = .ok joined
  maps_made : Draft.FakerootMaps l files h c maps
  namespaces_eq : r.config.namespaces =
    Draft.rootedNamespaces (l.namespacesLeft files.policy c) maps
  creationFlags_eq : r.plan.creationFlags = r.config.namespaces.creationFlags
  joinPaths_eq : ∀ k, r.plan.joinPaths k = r.config.namespaces.lastPath k
  maps_eq : (r.plan.uidMap, r.plan.gidMap) = Draft.mapsOf c l.facts.caller maps

theorem fakerootMaps_opening {files : AdminFiles} {user : ContainerUser}
    {maps : Option SubordinateMaps}
    (hmaps : Draft.FakerootMaps l files (opened l c h)
      ((opening l c h).withUser user).config maps) :
    Draft.FakerootMaps l files h c maps := by
  have hroot : ((opening l c h).withUser user).config.fakeroot = c.fakeroot := by
    simp only [Draft.withUser]
    rw [opening_config]
  cases maps with
  | none => exact hroot.symm.trans hmaps
  | some m => exact ⟨hroot.symm.trans hmaps.1, hmaps.2⟩

/-- The plan of a new container that is ready holds the namespaces of its final
configuration and the maps that its request settles. -/
theorem planned_of_prepare (hfresh : c.instanceJoin = none)
    (hrun : (l.prepare c).perform h = (.ok r, h')) : ∃ files maps, Planned l c h r files maps := by
  obtain ⟨files, user, d₁, h₁, d₂, h₂, pinned, handles, ends, hfiles, hmade, himages, rfl⟩ :=
    prepare_fresh_ok hfresh hrun
  obtain ⟨hverdict, hauth, maps, seccomp, hmaps, -, rfl, -⟩ := Draft.fresh_ok.mp hmade
  have hsame := Draft.sameIsolation_of_withImages himages
  have hmaps : Draft.FakerootMaps l files h c maps := fakerootMaps_opening hmaps
  have hruling := ruling_opening (l := l) (c := c) (h := h) files.policy user
  have hleft : d₂.config.namespaces =
      Draft.rootedNamespaces (l.namespacesLeft files.policy c) maps := by
    rw [hsame.namespaces, Draft.freshWith_namespaces, hruling, namespacesLeft]
  rw [hruling] at hverdict
  rw [hruling, opened, Draft.authorizeNetwork_tellAll] at hauth
  refine ⟨files, maps, hfiles, hverdict, hauth, hmaps, hleft, ?_, ?_, ?_⟩
  · change d₂.plan.creationFlags = d₂.config.namespaces.creationFlags
    rw [hsame.creationFlags, hsame.namespaces, Draft.freshWith_creationFlags,
      Draft.freshWith_namespaces]
  · intro k
    have hnone : ((opening l c h).withUser user).plan.joinPaths k = none :=
      opening_joinPaths l c h k
    change d₂.plan.joinPaths k = d₂.config.namespaces.lastPath k
    rw [hsame.joinPaths, hsame.namespaces, Draft.freshWith_joinPaths, Draft.freshWith_namespaces,
      hnone, Option.or_none]
  · change (d₂.plan.uidMap, d₂.plan.gidMap) = Draft.mapsOf c l.facts.caller maps
    rw [hsame.uidMap, hsame.gidMap]
    apply Draft.freshWith_maps
    · simp only [Draft.withUser]
      rw [opening_config]
    · simp only [Draft.withUser]
      rw [opening_config]
    · rw [hruling]
      exact NamespaceList.has_congr (ofKind_namespacesLeft files.policy (Or.inl rfl))
    · -- the maps of a fake superuser are not empty, so its own numbers do not replace them
      rintro m rfl
      obtain ⟨subuid, subgid, users, groups, -, -, -, -, hmap, -⟩ :=
        Draft.subordinateMaps_ok hmaps.2.2
      rw [hmap]
      exact List.cons_ne_nil _ _

end Launcher
end ContainerLaunch
