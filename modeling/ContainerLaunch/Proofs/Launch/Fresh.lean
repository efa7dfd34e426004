import ContainerLaunch.Launch.NewContainer
import ContainerLaunch.Proofs.Launch.Shared
import ContainerLaunch.Proofs.Namespaces
/-!
# New containers, step by step

What each step towards a new container makes of a draft.  All of them are quiet,
and none but the last one opens anything.
-/

namespace ContainerLaunch.Draft

variable {l : Launcher} {policy : AdminFiles} {d d' : Draft} {h h' : Host}

/-! ## Namespaces -/

/-- What the policy makes of the namespaces of a draft. -/
def ruling (l : Launcher) (policy : Policy) (d : Draft) : NamespaceList.Ruling :=
  d.config.namespaces.underPolicy policy l.facts.suidInstall d.config.hostname.isSome

/-- A draft with other namespaces. -/
def inNamespaces (d : Draft) (s : NamespaceList) : Draft :=
  { d with config := { d.config with namespaces := s } }

theorem withNamespaces_ok {p : Policy} :
    (d.withNamespaces l p).perform h = (.ok d', h') ↔
      (d.ruling l p).verdict = .ok () ∧
        (∃ joined, (d.ruling l p).namespaces.authorizeNetwork h p l.facts.caller = .ok joined) ∧
        d.inNamespaces (d.ruling l p).namespaces = d' ∧
        h.tellAll (d.ruling l p).notices = h' := by
  simp only [withNamespaces, Action.perform_notifyAll_bind, Action.perform_ofExcept_bind_ok,
    Action.perform_observe_bind, Action.perform_pure_ok, id]
  constructor
  · rintro ⟨_, hverdict, joined, hjoined, hd, hh⟩
    exact ⟨hverdict, ⟨joined, hjoined⟩, hd, hh⟩
  · rintro ⟨hverdict, ⟨joined, hjoined⟩, hd, hh⟩
    exact ⟨(), hverdict, joined, hjoined, hd, hh⟩

theorem quiet_withNamespaces (l : Launcher) (p : Policy) (d : Draft) :
    Action.Quiet (d.withNamespaces l p) :=
  Action.quiet_bind (Action.quiet_notifyAll _) fun _ =>
    Action.quiet_bind (Action.quiet_ofExcept _) fun _ =>
      Action.quiet_bind (Action.quiet_observe _) fun _ =>
        Action.quiet_bind (Action.quiet_ofExcept _) fun _ => Action.quiet_pure _

/-! ## Fake superusers -/

/-- A draft for a fake superuser, if there are maps for one. -/
def rooted (d : Draft) : Option SubordinateMaps → Draft
  | some maps => d.asFakeroot maps
  | none => d

/-- What a launch as a fake superuser has to be given: nothing if it is none, and
otherwise maps, where the policy allows a user namespace. -/
def FakerootMaps (l : Launcher) (policy : AdminFiles) (h : Host) (c : LaunchConfig) :
    Option SubordinateMaps → Prop
  | none => c.fakeroot = false
  | some maps => c.fakeroot = true ∧ policy.policy.allowUserNs = true ∧
      subordinateMaps l policy h = .ok maps

theorem FakerootMaps.isSome_eq {c : LaunchConfig} {maps : Option SubordinateMaps}
    (hmaps : FakerootMaps l policy h c maps) : maps.isSome = c.fakeroot := by
  cases maps with
  | none => exact hmaps.symm
  | some m => exact hmaps.1.symm

/-- A fake superuser's launch has been given maps. -/
theorem FakerootMaps.exists_of_fakeroot {c : LaunchConfig} {maps : Option SubordinateMaps}
    (hmaps : FakerootMaps l policy h c maps) (hroot : c.fakeroot = true) :
    ∃ m, maps = some m ∧ policy.policy.allowUserNs = true ∧
      subordinateMaps l policy h = .ok m := by
  cases maps with
  | none =>
      have hnone : c.fakeroot = false := hmaps
      rw [hnone] at hroot
      cases hroot
  | some m => exact ⟨m, rfl, hmaps.2⟩

theorem withFakeroot_ok :
    (d.withFakeroot l policy).perform h = (.ok d', h') ↔
      ∃ maps, FakerootMaps l policy h d.config maps ∧ d.rooted maps = d' ∧ h = h' := by
  unfold withFakeroot
  by_cases hroot : d.config.fakeroot = true
  · by_cases hallow : policy.policy.allowUserNs = true
    · simp only [hroot, hallow, Bool.not_true, Bool.false_eq_true, if_false,
        Action.perform_observe_bind, id, bind_pure_comp, Action.perform_map_ok,
        Action.perform_ofExcept_ok]
      constructor
      · rintro ⟨maps, ⟨hmaps, rfl⟩, hd⟩
        exact ⟨some maps, ⟨hroot, hallow, hmaps⟩, hd, rfl⟩
      · rintro ⟨maps, hmaps, hd, rfl⟩
        cases maps with
        | none => exact absurd hroot (by simpa [FakerootMaps] using hmaps)
        | some maps => exact ⟨maps, ⟨hmaps.2.2, rfl⟩, hd⟩
    · constructor
      · intro hrun
        simp [hroot, hallow] at hrun
      · rintro ⟨maps, hmaps, -, -⟩
        cases maps with
        | none => exact absurd hroot (by simpa [FakerootMaps] using hmaps)
        | some maps => exact absurd hmaps.2.1 hallow
  · constructor
    · intro hrun
      have hsame : d = d' ∧ h = h' := by simpa [hroot] using hrun
      exact ⟨none, by simpa [FakerootMaps] using hroot, hsame.1, hsame.2⟩
    · rintro ⟨maps, hmaps, hd, rfl⟩
      cases maps with
      | none => simpa [hroot, rooted] using hd
      | some maps => exact absurd hmaps.1 hroot

theorem quiet_withFakeroot (l : Launcher) (policy : AdminFiles) (d : Draft) :
    Action.Quiet (d.withFakeroot l policy) := by
  have hmaps : Action.Quiet (do
      let h ← Action.observe id
      return d.asFakeroot (← Action.ofExcept (subordinateMaps l policy h))) :=
    Action.quiet_bind (Action.quiet_observe _) fun _ =>
      Action.quiet_bind (Action.quiet_ofExcept _) fun _ => Action.quiet_pure _
  unfold withFakeroot
  refine Action.quiet_ite (Action.quiet_pure _) ?_
  exact Action.quiet_ite
    (Action.quiet_bind (Action.quiet_fail _) fun _ => hmaps) hmaps

/-! ## The whole draft -/

theorem seccompOption_congr {c c' : LaunchConfig} {ns : List Notice}
    (hsame : c'.security = c.security) :
    seccompOption (h.tellAll ns) c' = seccompOption h c := by
  unfold seccompOption LaunchConfig.securityOption
  rw [hsame]
  rfl

theorem authorizeNetwork_tellAll (s : NamespaceList) (p : Policy) (c : Caller) (ns : List Notice) :
    s.authorizeNetwork (h.tellAll ns) p c = s.authorizeNetwork h p c :=
  rfl

@[simp] theorem withOwnMaps_security (c : LaunchConfig) (caller : Caller) :
    (withOwnMaps c caller).security = c.security := by
  unfold withOwnMaps
  split <;> rfl

@[simp] theorem rooted_security (d : Draft) (maps : Option SubordinateMaps) :
    (d.rooted maps).config.security = d.config.security := by
  cases maps <;> rfl

/-- What a launch adds to a request before its images: the namespaces that are
left, what was granted, the maps of a fake superuser and the security options. -/
def freshWith (d : Draft) (l : Launcher) (policy : AdminFiles) (targetIds : Bool)
    (maps : Option SubordinateMaps) (seccomp : Option Json) : Draft :=
  ((((d.inNamespaces (d.ruling l policy.policy).namespaces).granted
    (grant policy l.facts.caller l.facts.isSuid (capabilityRequest d.config targetIds))).rooted
      maps).withNamespacePlan policy.policy l.facts.caller).secured seccomp

/-- A new container gets as far as its images if and only if the policy lets its
namespaces be, the network that it joins is granted, and the maps and the seccomp
profile that it needs can be had. -/
theorem fresh_ok {targetIds : Bool} :
    (d.fresh l policy targetIds).perform h = (.ok d', h') ↔
      (d.ruling l policy.policy).verdict = .ok () ∧
        (∃ joined, (d.ruling l policy.policy).namespaces.authorizeNetwork h policy.policy
          l.facts.caller = .ok joined) ∧
        ∃ maps seccomp, FakerootMaps l policy h d.config maps ∧
          seccompOption h d.config = .ok seccomp ∧
          d.freshWith l policy targetIds maps seccomp = d' ∧
          h.tellAll ((d.ruling l policy.policy).notices ++
            (grant policy l.facts.caller l.facts.isSuid
              (capabilityRequest d.config targetIds)).notices) = h' := by
  simp only [fresh, Action.perform_bind_ok, withNamespaces_ok]
  constructor
  · rintro ⟨_, _, ⟨hverdict, hjoined, rfl, rfl⟩, d₂, h₂, hcap, d₃, h₃, hroot, hsec⟩
    rw [perform_withCapabilities] at hcap
    cases hcap
    obtain ⟨maps, hmaps, rfl, rfl⟩ := withFakeroot_ok.mp hroot
    obtain ⟨seccomp, hseccomp, rfl, rfl⟩ := withSecurity_ok.mp hsec
    rw [Host.tellAll_tellAll] at hseccomp
    refine ⟨hverdict, hjoined, maps, seccomp, ?_, ?_, rfl, (Host.tellAll_tellAll _ _ _).symm⟩
    · cases maps with
      | none => exact hmaps
      | some maps => exact hmaps
    · rw [seccompOption_congr (c := d.config)] at hseccomp
      · exact hseccomp
      · simp [withNamespacePlan, granted, inNamespaces]
  · rintro ⟨hverdict, hjoined, maps, seccomp, hmaps, hseccomp, rfl, rfl⟩
    refine ⟨_, _, ⟨hverdict, hjoined, rfl, rfl⟩, _, _, perform_withCapabilities .., _, _,
      withFakeroot_ok.mpr ⟨maps, ?_, rfl, rfl⟩, withSecurity_ok.mpr ⟨seccomp, ?_, rfl, ?_⟩⟩
    · cases maps with
      | none => exact hmaps
      | some maps => exact hmaps
    · rw [Host.tellAll_tellAll, seccompOption_congr (c := d.config)]
      · exact hseccomp
      · simp [withNamespacePlan, granted, inNamespaces]
    · rw [Host.tellAll_tellAll]
      rfl

theorem quiet_fresh (l : Launcher) (policy : AdminFiles) (targetIds : Bool) (d : Draft) :
    Action.Quiet (d.fresh l policy targetIds) :=
  Action.quiet_bind (quiet_withNamespaces _ _ _) fun _ =>
    Action.quiet_bind (quiet_withCapabilities _ _ _ _ _) fun _ =>
      Action.quiet_bind (quiet_withFakeroot _ _ _) fun _ => quiet_withSecurity _

/-! ## What the draft then has -/

section FreshWith

variable (d l policy) (targetIds : Bool) (maps : Option SubordinateMaps) (seccomp : Option Json)

theorem withOwnMaps_eq (c : LaunchConfig) (caller : Caller) :
    withOwnMaps c caller = { c with
      uidMappings := (withOwnMaps c caller).uidMappings
      gidMappings := (withOwnMaps c caller).gidMappings } := by
  unfold withOwnMaps
  split <;> rfl

theorem freshWith_images : (d.freshWith l policy targetIds maps seccomp).images = d.images := by
  cases maps <;> rfl

/-- Up to its images a new container settles the namespaces, the maps and the process
of a request, and leaves the rest of it as it is. -/
theorem freshWith_config :
    (d.freshWith l policy targetIds maps seccomp).config = { d.config with
      namespaces := (d.freshWith l policy targetIds maps seccomp).config.namespaces
      process := (d.freshWith l policy targetIds maps seccomp).config.process
      uidMappings := (d.freshWith l policy targetIds maps seccomp).config.uidMappings
      gidMappings := (d.freshWith l policy targetIds maps seccomp).config.gidMappings } := by
  simp only [freshWith, secured, withNamespacePlan]
  rw [withOwnMaps_eq]
  cases maps <;> rfl

theorem freshWith_process :
    (d.freshWith l policy targetIds none seccomp).config.process.capabilities =
        .uniform (grant policy l.facts.caller l.facts.isSuid
          (capabilityRequest d.config targetIds)).set ∧
      (d.freshWith l policy targetIds none seccomp).config.process.noNewPrivileges =
        (d.config.process.noNewPrivileges || (grant policy l.facts.caller l.facts.isSuid
          (capabilityRequest d.config targetIds)).noNewPrivileges) := by
  simp only [freshWith, secured, withNamespacePlan]
  rw [withOwnMaps_eq]
  exact ⟨rfl, rfl⟩

/-- A fake superuser's maps change nothing about whether the process may gain privileges. -/
theorem freshWith_noNewPrivileges :
    (d.freshWith l policy targetIds maps seccomp).config.process.noNewPrivileges =
      (d.config.process.noNewPrivileges || (grant policy l.facts.caller l.facts.isSuid
        (capabilityRequest d.config targetIds)).noNewPrivileges) := by
  simp only [freshWith, secured, withNamespacePlan]
  rw [withOwnMaps_eq]
  cases maps <;> rfl

/-- A new container is for the target of its request, unless it is a fake superuser's. -/
theorem freshWith_target :
    (d.freshWith l policy targetIds maps seccomp).plan.targetUid =
        (if maps.isSome then 0 else d.plan.targetUid) ∧
      (d.freshWith l policy targetIds maps seccomp).plan.targetGids =
        (if maps.isSome then [0] else d.plan.targetGids) := by
  simp only [freshWith, secured, withNamespacePlan]
  rw [Plan.withJoins_eq]
  cases maps <;> exact ⟨rfl, rfl⟩

end FreshWith

end ContainerLaunch.Draft
