import ContainerLaunch.Proofs.EnforcedCapabilities
import ContainerLaunch.Proofs.Launch.Planned
/-!
# Privileges that the superuser gives up

The superuser may ask to run as somebody else or without privileges.  Whether the process
may gain privileges again is decided in several steps, of which each but the last can only
take the possibility away.  The last one is made only for a joined instance, and puts back
what the instance was started with: a launch that joins an instance gives up its
privileges just where the instance had given them up.
-/

namespace ContainerLaunch

/-! ## Requests -/

/-- A request to run as somebody else than the superuser, or without privileges. -/
def LaunchConfig.GivesUp (c : LaunchConfig) : Prop :=
  c.targetUid ≠ 0 ∨ c.targetGids ≠ [] ∨ c.noPrivs = true

namespace Draft

variable {c : LaunchConfig} {caller : Caller}

theorem asksForTarget_iff :
    asksForTarget c caller = true ↔ caller.uid = 0 ∧ (c.targetUid ≠ 0 ∨ c.targetGids ≠ []) := by
  simp [asksForTarget, Caller.isSuperuser]

/-- Without privileges means without new ones. -/
theorem noNewPrivileges_grant (hroot : caller.uid = 0) (hnone : c.noPrivs = true)
    (files : AdminFiles) (enforced targetIds : Bool) :
    (grant files caller enforced (capabilityRequest c targetIds)).noNewPrivileges = true := by
  have hsuper : caller.isSuperuser = true := by
    simp [Caller.isSuperuser, hroot]
  simp [grant, hsuper, Grant.forRoot, Grant.rootMode, capabilityRequest, hnone]

end Draft

namespace Launcher

variable {l : Launcher} {c : LaunchConfig} {h h' : Host} {r : ReadyLaunch}

/-! ## Targets -/

/-- The superuser's launch is for the target of its request, of whose groups as many count
as fit, and a fake superuser's is for the superuser in the container. -/
structure RunsAs (c source : LaunchConfig) (p : Plan) : Prop where
  target : source.fakeroot = false →
    p.targetUid = c.targetUid ∧ p.targetGids = c.targetGids.take Plan.maxGids
  fake_superuser : source.fakeroot = true → p.targetUid = 0 ∧ p.targetGids = [0]

/-- For the superuser a target that is not asked for is the superuser's. -/
theorem opening_target (hroot : l.facts.caller.uid = 0) :
    (opening l c h).plan.targetUid = c.targetUid ∧
      (opening l c h).plan.targetGids = c.targetGids.take Plan.maxGids := by
  rw [opening_plan]
  by_cases hasks : Draft.asksForTarget c l.facts.caller = true
  · rw [if_pos hasks]
    exact ⟨rfl, rfl⟩
  · have hnone : c.targetUid = 0 ∧ c.targetGids = [] := by
      simpa [Draft.asksForTarget_iff, hroot] using hasks
    rw [if_neg hasks, hnone.1, hnone.2]
    exact ⟨rfl, rfl⟩

/-! ## New containers -/

/-- The process of a new container may not gain privileges if the request says so, if it
asks for a target, or if what it is granted comes without privileges; and the container is
for the target, unless it is a fake superuser's. -/
theorem fresh_privileges (hfresh : c.instanceJoin = none)
    (hrun : (l.prepare c).perform h = (.ok r, h')) :
    (∃ files, l.loadPolicy c h = .ok files ∧
      r.plan.noNewPrivs =
        ((c.process.noNewPrivileges || Draft.asksForTarget c l.facts.caller) ||
          (Draft.grant files l.facts.caller l.facts.isSuid
            (Draft.capabilityRequest c (Draft.asksForTarget c l.facts.caller))).noNewPrivileges)) ∧
      r.plan.targetUid = (if c.fakeroot then 0 else (opening l c h).plan.targetUid) ∧
      r.plan.targetGids = (if c.fakeroot then [0] else (opening l c h).plan.targetGids) := by
  obtain ⟨files, user, d₁, h₁, d₂, h₂, pinned, handles, ends, hfiles, hmade, himages, rfl⟩ :=
    prepare_fresh_ok hfresh hrun
  obtain ⟨-, -, maps, seccomp, hmaps, -, rfl, -⟩ := Draft.fresh_ok.mp hmade
  obtain ⟨hprocess, huid, hgids⟩ := Draft.process_withImages himages
  have hrequest : Draft.capabilityRequest ((opening l c h).withUser user).config
      (Draft.asksForTarget c l.facts.caller) = Draft.capabilityRequest c
        (Draft.asksForTarget c l.facts.caller) := capabilityRequest_opening _
  have hasked : ((opening l c h).withUser user).config.process.noNewPrivileges =
      (c.process.noNewPrivileges || Draft.asksForTarget c l.facts.caller) :=
    opening_noNewPrivileges l c h
  obtain ⟨htargetUid, htargetGids⟩ := Draft.freshWith_target l files
    ((opening l c h).withUser user) (Draft.asksForTarget c l.facts.caller) maps seccomp
  rw [(fakerootMaps_opening hmaps).isSome_eq] at htargetUid htargetGids
  refine ⟨⟨files, hfiles, ?_⟩, huid.trans htargetUid, hgids.trans htargetGids⟩
  change d₂.config.process.noNewPrivileges = _
  rw [hprocess, Draft.freshWith_noNewPrivileges, hrequest, hasked]

/-- A new container keeps to what its request gives up. -/
theorem fresh_given_up (hroot : l.facts.caller.uid = 0) (hfresh : c.instanceJoin = none)
    (hrun : (l.prepare c).perform h = (.ok r, h')) :
    (c.GivesUp → r.plan.noNewPrivs = true) ∧ RunsAs c c r.plan := by
  obtain ⟨⟨files, -, hpriv⟩, huid, hgids⟩ := fresh_privileges hfresh hrun
  obtain ⟨hopenedUid, hopenedGids⟩ := opening_target (c := c) (h := h) hroot
  refine ⟨?_, ?_, ?_⟩
  · intro hgives
    rw [hpriv]
    rcases or_assoc.mpr hgives with htarget | hnone
    · rw [Draft.asksForTarget_iff.mpr ⟨hroot, htarget⟩, Bool.or_true, Bool.true_or]
    · rw [Draft.noNewPrivileges_grant hroot hnone, Bool.or_true]
  · intro hfake
    rw [huid, hgids, hfake]
    exact ⟨hopenedUid, hopenedGids⟩
  · intro hfake
    rw [huid, hgids, hfake]
    exact ⟨rfl, rfl⟩

/-! ## Joined instances -/

/-- A launch that joins an instance may gain privileges if the instance may. -/
theorem join_given_up (hroot : l.facts.caller.uid = 0) (hjoin : c.instanceJoin.isSome = true)
    (hrun : (l.prepare c).perform h = (.ok r, h')) :
    ∃ source, RestoresFrom l c h source ∧
      r.plan.noNewPrivs = source.process.noNewPrivileges ∧ RunsAs c source r.plan := by
  obtain ⟨files, record, original, d₁, h₁, handles, ends, -, htake, rfl⟩ :=
    prepare_join_ok hjoin hrun
  obtain ⟨enforced, directory, h₂, seccomp, hexamined, -, -, rfl⟩ := Draft.takeOver_ok htake
  have hload := loadRecord_opening.symm.trans hexamined.record_loaded
  have hsuper : l.facts.caller.isSuperuser = true := by simp [Caller.isSuperuser, hroot]
  obtain ⟨huid, hgids⟩ := opening_target (c := c) (h := h) hroot
  refine ⟨original, .joined hjoin record original hload hexamined.config_read, ?_, ?_⟩
  · rw [closed_noNewPrivs, Draft.restorePrivileges_eq]
    exact if_pos hsuper
  · rw [closed_plan, Draft.restorePrivileges_eq, Draft.takingOver_plan]
    constructor
    · intro hfake
      simp [Draft.joinPlan, hfake, huid, hgids]
    · intro hfake
      simp [Draft.joinPlan, hfake]

/-! ## Every launch of the superuser -/

/-- A launch of the superuser is for the target of its request, unless the container is a
fake superuser's.  If the request gives up privileges, the process may not gain any in a
new container; in a joined instance it may not exactly if the instance was started like
that. -/
theorem given_up_iff (hroot : l.facts.caller.uid = 0)
    (hrun : (l.prepare c).perform h = (.ok r, h')) :
    ∃ source, RestoresFrom l c h source ∧ RunsAs c source r.plan ∧
      (c.instanceJoin.isSome = true → r.plan.noNewPrivs = source.process.noNewPrivileges) ∧
      (c.GivesUp → (r.plan.noNewPrivs = true ↔
        c.instanceJoin = none ∨ source.process.noNewPrivileges = true)) := by
  cases hjoin : c.instanceJoin with
  | none =>
      obtain ⟨hkept, htarget⟩ := fresh_given_up hroot hjoin hrun
      refine ⟨c, .fresh hjoin, htarget, ?_, ?_⟩
      · intro hsome
        cases hsome
      · intro hgives
        exact ⟨fun _ => .inl rfl, fun _ => hkept hgives⟩
  | some name =>
      have hsome : c.instanceJoin.isSome = true := by rw [hjoin]; rfl
      obtain ⟨source, hsource, hpriv, htarget⟩ := join_given_up hroot hsome hrun
      refine ⟨source, hsource, htarget, fun _ => hpriv, fun _ => ?_⟩
      rw [hpriv]
      simp

/-! ## A join that gives up what it can -/

/-- A host of the superuser with the process of an instance and its record. -/
def instanceHost : Host :=
  .plain ⟨0, 0, 0, []⟩ [["etc"], ["etc", "stagehand"], ["proc"], ["proc", "42"]]
    [(["etc", "stagehand", "stagehand.yaml"], ""),
      (["box.json"], "\x7b\"name\":\"box\",\"pid\":42,\"ppid\":41,\"config\":\x7b\x7d\x7d")]

/-- A request to join the instance as somebody else and without privileges. -/
def joinGivingUp : String :=
  "\x7b\"instanceJoin\":\"box\",\"instanceFile\":\"/box.json\"," ++
    "\"process\":\x7b\"args\":[\"sh\"]\x7d," ++
    "\"targetUid\":1000,\"targetGids\":[100],\"noPrivs\":true\x7d"

theorem prepare_joinGivingUp :
    ∃ c r h', LaunchConfig.parse joinGivingUp = .ok c ∧
      (c.targetUid = 1000 ∧ c.targetGids = [100] ∧ c.noPrivs = true) ∧
      c.instanceJoin.isSome = true ∧
      ((onHost instanceHost false).prepare c).perform instanceHost = (.ok r, h') ∧
      r.plan.noNewPrivs = false ∧ r.plan.targetUid = 1000 := by
  obtain ⟨c, hparse, hc⟩ : ∃ c, LaunchConfig.parse joinGivingUp = .ok c ∧
      ((c.targetUid, c.targetGids, c.noPrivs), c.instanceJoin.isSome,
        (((onHost instanceHost false).prepare c).perform instanceHost).1.toOption.map
          fun r => (r.plan.noNewPrivs, r.plan.targetUid)) =
      ((1000, [100], true), true, some (false, 1000)) :=
    Error.exists_ok_of_map (by decide +kernel)
  simp only [Prod.mk.injEq] at hc
  obtain ⟨hasks, hjoin, hready⟩ := hc
  obtain ⟨r, h', hrun, hready⟩ := Action.exists_perform_ok hready
  obtain ⟨hpriv, htarget⟩ := Prod.mk.inj hready
  exact ⟨c, r, h', hparse, hasks, hjoin, hrun, hpriv, htarget⟩

/-- The request names a target and gives up its privileges, and the process may gain
privileges all the same. -/
theorem privileges_kept_by_join :
    ∃ c r h', LaunchConfig.parse joinGivingUp = .ok c ∧ c.targetUid ≠ 0 ∧ c.targetGids ≠ [] ∧
      c.noPrivs = true ∧ (onHost instanceHost false).facts.caller.uid = 0 ∧
      ((onHost instanceHost false).prepare c).perform instanceHost = (.ok r, h') ∧
      r.plan.noNewPrivs ≠ true := by
  obtain ⟨c, r, h', hparse, ⟨huid, hgids, hnone⟩, -, hrun, hpriv, -⟩ :=
    prepare_joinGivingUp
  refine ⟨c, r, h', hparse, ?_, ?_, hnone, rfl, hrun, ?_⟩
  · rw [huid]
    decide
  · rw [hgids]
    decide
  · rw [hpriv]
    decide

/-- The instance was not started without new privileges, so the process may gain some; it
is for the target of the request. -/
theorem given_up_iff_joinGivingUp :
    ∃ c r h' source, LaunchConfig.parse joinGivingUp = .ok c ∧ c.GivesUp ∧
      (onHost instanceHost false).facts.caller.uid = 0 ∧
      ((onHost instanceHost false).prepare c).perform instanceHost = (.ok r, h') ∧
      RestoresFrom (onHost instanceHost false) c instanceHost source ∧
      source.process.noNewPrivileges = false ∧ r.plan.noNewPrivs = false ∧
      source.fakeroot = false ∧ r.plan.targetUid = 1000 ∧ r.plan.targetGids = [100] := by
  obtain ⟨c, r, h', hparse, ⟨-, hgids, hnone⟩, hjoin, hrun, hpriv, huid⟩ := prepare_joinGivingUp
  obtain ⟨source, hsource, htarget, hsame, -⟩ :=
    given_up_iff (l := onHost instanceHost false) rfl hrun
  have hfake : source.fakeroot = false := by
    rw [Bool.eq_false_iff]
    intro hfake
    rw [(htarget.fake_superuser hfake).1] at huid
    exact absurd huid (by decide)
  refine ⟨c, r, h', source, hparse, .inr (.inr hnone), rfl, hrun, hsource, ?_, hpriv, hfake,
    huid, ?_⟩
  · rw [← hsame hjoin, hpriv]
  · rw [(htarget.target hfake).2, hgids]
    rfl

end Launcher
end ContainerLaunch
