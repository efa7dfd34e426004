import ContainerLaunch.Proofs.EnforcedCapabilities
import ContainerLaunch.Proofs.NumberMaps
/-!
# Dropped capabilities

Drops are taken out of whatever a caller is given, and so are in none of the classes that
a launch hands on.  A new container of a fake superuser is the exception: its capabilities
are put in after the drops and in place of what they left, and are all there are.
-/

namespace ContainerLaunch

/-- The capability that lets a process administer the system. -/
def Capability.sysAdmin : Capability := ⟨21⟩

namespace Draft

variable {k : Capability} {files : AdminFiles} {caller : Caller} {enforced : Bool}
  {q : CapabilityDemand}

/-- Nobody is given what its request drops. -/
theorem not_mem_grant (hdrop : k.NamedIn q.drop) : k ∉ (grant files caller enforced q).set := by
  have hnamed : k ∈ Capability.named q.drop := Capability.mem_named_iff_namedIn.mpr hdrop
  unfold grant
  split
  · intro hk
    exact (CapabilitySet.mem_diff.mp hk).2 hnamed
  · intro hk
    exact (CapabilitySet.mem_diff.mp hk).2 hnamed

/-- With the maps of a fake superuser come all capabilities. -/
theorem freshWith_capabilities (d : Draft) (l : Launcher) (targetIds : Bool)
    (maps : SubordinateMaps) (seccomp : Option Json) :
    (d.freshWith l files targetIds (some maps) seccomp).config.process.capabilities =
      .uniform .full := by
  simp only [freshWith, secured, withNamespacePlan]
  rw [withOwnMaps_eq]
  rfl

end Draft

namespace Launcher

variable {l : Launcher} {c : LaunchConfig} {h h' : Host} {r : ReadyLaunch}

/-! ## Where the capabilities come from -/

/-- A launch hands on every capability, as the new container of a fake superuser, or what
is left when the drops are taken out of what it was given. -/
inductive CapabilitiesFrom (l : Launcher) (c : LaunchConfig) (r : ReadyLaunch) : Prop
  | fakeroot (hfake : c.instanceJoin = none ∧ c.fakeroot = true)
      (hcaps : r.plan.capabilities = (CapabilityClasses.uniform .full).words)
  | grant {files : AdminFiles} {enforced : Bool} {q : CapabilityDemand}
      (hreal : ¬ (c.instanceJoin = none ∧ c.fakeroot = true)) (hdrop : q.drop = c.dropCaps)
      (hcaps : r.plan.capabilities = (CapabilityClasses.uniform
        (Draft.grant files l.facts.caller enforced q).set).words)

/-- A new container of a fake superuser is given every capability. -/
theorem fakeroot_capabilities (hfresh : c.instanceJoin = none) (hroot : c.fakeroot = true)
    (hrun : (l.prepare c).perform h = (.ok r, h')) :
    r.plan.capabilities = (CapabilityClasses.uniform .full).words := by
  obtain ⟨files, user, d₁, h₁, d₂, h₂, pinned, handles, ends, hfiles, hmade, himages, rfl⟩ :=
    prepare_fresh_ok hfresh hrun
  obtain ⟨-, -, maps, seccomp, hmaps, -, rfl, -⟩ := Draft.fresh_ok.mp hmade
  obtain ⟨hprocess, -, -⟩ := Draft.process_withImages himages
  have hsome : maps.isSome = true := (fakerootMaps_opening hmaps).isSome_eq.trans hroot
  obtain ⟨maps, rfl⟩ := Option.isSome_iff_exists.mp hsome
  rw [closed_capabilities]
  change d₂.config.process.capabilities.words = _
  rw [hprocess, Draft.freshWith_capabilities]

theorem capabilitiesFrom_fresh (hfresh : c.instanceJoin = none)
    (hrun : (l.prepare c).perform h = (.ok r, h')) : CapabilitiesFrom l c r := by
  cases hroot : c.fakeroot with
  | true => exact .fakeroot ⟨hfresh, hroot⟩ (fakeroot_capabilities hfresh hroot hrun)
  | false =>
      obtain ⟨files, g, -, rfl, hcaps, -⟩ := fresh_capabilities hfresh hroot hrun
      exact .grant (by simp [hroot]) rfl hcaps

theorem capabilitiesFrom_join (hjoin : c.instanceJoin.isSome = true)
    (hrun : (l.prepare c).perform h = (.ok r, h')) : CapabilitiesFrom l c r := by
  obtain ⟨files, record, original, enforced, -, -, -, -, hcaps, -⟩ :=
    join_capabilities hjoin hrun
  refine .grant ?_ ?_ hcaps
  · rintro ⟨hfresh, -⟩
    rw [hfresh] at hjoin
    cases hjoin
  · rfl

theorem capabilitiesFrom_of_prepare (hrun : (l.prepare c).perform h = (.ok r, h')) :
    CapabilitiesFrom l c r := by
  cases hjoin : c.instanceJoin with
  | none => exact capabilitiesFrom_fresh hjoin hrun
  | some name => exact capabilitiesFrom_join (by rw [hjoin]; rfl) hrun

/-! ## Every launch -/

/-- Every launch that is ready hands on one set in all five classes.  What its request
drops is not in it, unless the launch is a new container of a fake superuser, where every
capability is in it. -/
theorem dropped_iff (hrun : (l.prepare c).perform h = (.ok r, h')) :
    ∃ set : CapabilitySet,
      r.plan.capabilities = ⟨set.bits, set.bits, set.bits, set.bits, set.bits⟩ ∧
      ∀ k : Capability, k.NamedIn c.dropCaps →
        (k ∈ set ↔ c.instanceJoin = none ∧ c.fakeroot = true) := by
  cases capabilitiesFrom_of_prepare hrun with
  | fakeroot hfake hcaps =>
      obtain ⟨set, hwords, hset⟩ := words_uniform_eq CapabilitySet.full
      refine ⟨set, hcaps.trans hwords, fun k _ => ?_⟩
      exact iff_of_true ((hset k).mpr (CapabilitySet.mem_full k)) hfake
  | @grant files enforced q hreal hdrop hcaps =>
      obtain ⟨set, hwords, hset⟩ :=
        words_uniform_eq (Draft.grant files l.facts.caller enforced q).set
      refine ⟨set, hcaps.trans hwords, fun k hk => iff_of_false ?_ hreal⟩
      rw [hset]
      exact Draft.not_mem_grant (hdrop ▸ hk)

/-! ## A drop that wins and one that does not -/

/-- A request for three capabilities that drops one of them. -/
def threeButOne : String :=
  "\x7b\"image\":\"/image\",\"process\":\x7b\"args\":[\"sh\"]\x7d," ++
    "\"addCaps\":[\"chown, sys_admin\",\"kill\"],\"dropCaps\":[\"sys_admin\"]\x7d"

theorem prepare_threeButOne :
    ∃ c r h', LaunchConfig.parse threeButOne = .ok c ∧
      c.fakeroot = false ∧ Capability.sysAdmin.NamedIn c.dropCaps ∧
      ((onHost rangesHost false).prepare c).perform rangesHost = (.ok r, h') ∧
      r.plan.capabilities.permitted = 33 := by
  obtain ⟨c, hparse, hc⟩ : ∃ c, LaunchConfig.parse threeButOne = .ok c ∧
      (c.fakeroot, decide (Capability.sysAdmin ∈ Capability.named c.dropCaps),
        (((onHost rangesHost false).prepare c).perform rangesHost).1.toOption.map
          fun r => r.plan.capabilities.permitted) =
      (false, true, some 33) :=
    Error.exists_ok_of_map (by decide +kernel)
  simp only [Prod.mk.injEq, decide_eq_true_eq] at hc
  obtain ⟨hroot, hdrop, hready⟩ := hc
  obtain ⟨r, h', hrun, hcaps⟩ := Action.exists_perform_ok hready
  exact ⟨c, r, h', hparse, hroot, Capability.mem_named_iff_namedIn.mp hdrop, hrun, hcaps⟩

theorem dropped_iff_threeButOne :
    ∃ c r h' set, LaunchConfig.parse threeButOne = .ok c ∧ Capability.sysAdmin.NamedIn c.dropCaps ∧
      ((onHost rangesHost false).prepare c).perform rangesHost = (.ok r, h') ∧
      r.plan.capabilities = ⟨set.bits, set.bits, set.bits, set.bits, set.bits⟩ ∧
      set.bits = 33 ∧ Capability.sysAdmin ∉ (set : CapabilitySet) := by
  obtain ⟨c, r, h', hparse, hroot, hdrop, hrun, hcaps⟩ := prepare_threeButOne
  obtain ⟨set, hwords, hset⟩ := dropped_iff hrun
  refine ⟨c, r, h', set, hparse, hdrop, hrun, hwords, ?_, ?_⟩
  · rw [hwords] at hcaps
    exact hcaps
  · rw [hset Capability.sysAdmin hdrop, hroot]
    rintro ⟨-, hfake⟩
    cases hfake

/-- A request to be a fake superuser who does not administer the system. -/
def rootWithoutSysAdmin : String :=
  "\x7b\"image\":\"/image\",\"process\":\x7b\"args\":[\"sh\"]\x7d," ++
    "\"fakeroot\":true,\"dropCaps\":[\"CAP_SYS_ADMIN\"]\x7d"

/-- The launch is ready, and the capability that its request drops is in the words of all
five classes. -/
theorem dropped_capability_kept :
    ∃ c r h' set, LaunchConfig.parse rootWithoutSysAdmin = .ok c ∧
      c.dropCaps = [Capability.sysAdmin.name] ∧
      ((onHost rangesHost true).prepare c).perform rangesHost = (.ok r, h') ∧
      r.plan.capabilities = ⟨set.bits, set.bits, set.bits, set.bits, set.bits⟩ ∧
      Capability.sysAdmin ∈ (set : CapabilitySet) := by
  obtain ⟨c, hparse, hc⟩ : ∃ c, LaunchConfig.parse rootWithoutSysAdmin = .ok c ∧
      (c.dropCaps, c.instanceJoin, c.fakeroot,
        (((onHost rangesHost true).prepare c).perform rangesHost).1.toOption.map
          fun r => r.plan.targetUid) =
      ([Capability.sysAdmin.name], none, true, some 0) :=
    Error.exists_ok_of_map (by decide +kernel)
  simp only [Prod.mk.injEq] at hc
  obtain ⟨hdrop, hfresh, hroot, hready⟩ := hc
  obtain ⟨r, h', hrun, -⟩ := Action.exists_perform_ok hready
  obtain ⟨set, hwords, hset⟩ := words_uniform_eq CapabilitySet.full
  exact ⟨c, r, h', set, hparse, hdrop, hrun,
    (fakeroot_capabilities hfresh hroot hrun).trans hwords,
    (hset Capability.sysAdmin).mpr (CapabilitySet.mem_full Capability.sysAdmin)⟩

end Launcher
end ContainerLaunch
