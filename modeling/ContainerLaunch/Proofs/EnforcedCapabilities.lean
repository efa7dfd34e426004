import ContainerLaunch.Proofs.Capabilities
import ContainerLaunch.Proofs.Launch.Preparation
/-!
# The capabilities of a privileged launch

A privileged launch of anybody but the superuser hands on one set of capabilities
in all five classes.  It holds what the request adds and what was given before,
as far as the administrator's table grants it to the caller and the request does
not drop it.
-/

namespace ContainerLaunch.Launcher

variable {l : Launcher} {c : LaunchConfig} {h h' : Host} {r : ReadyLaunch}

/-! ## What was given before -/

/-- The configuration whose permitted capabilities a launch asks for again: its own
for a new container, and that of the instance which it joins. -/
inductive RestoresFrom (l : Launcher) (c : LaunchConfig) (h : Host) : LaunchConfig → Prop
  | fresh (hfresh : c.instanceJoin = none) : RestoresFrom l c h c
  | joined (hjoin : c.instanceJoin.isSome = true) (record : InstanceRecord)
      (original : LaunchConfig)
      (hrecord : InstanceRecord.load h (Draft.recordPath h l.facts.caller c) = .ok record)
      (hconfig : Draft.instanceConfig record = .ok original) : RestoresFrom l c h original

/-! ## The set -/

/-- A set put into all five classes comes out as one word in each of them. -/
theorem words_uniform_eq (s : CapabilitySet) :
    ∃ t : CapabilitySet, (CapabilityClasses.uniform s).words =
        ⟨t.bits, t.bits, t.bits, t.bits, t.bits⟩ ∧ ∀ k, k ∈ t ↔ k ∈ s :=
  ⟨Capability.named s.names, CapabilityClasses.words_uniform s, fun _ => Capability.mem_named_names⟩

theorem capabilityRequest_opening (targetIds : Bool) :
    Draft.capabilityRequest (opening l c h).config targetIds =
      Draft.capabilityRequest c targetIds := by
  simp only [Draft.capabilityRequest]
  rw [opening_config]

/-- A new container that is not a fake superuser's is given what its own request asks
for. -/
theorem fresh_capabilities (hfresh : c.instanceJoin = none) (hroot : c.fakeroot = false)
    (hrun : (l.prepare c).perform h = (.ok r, h')) :
    ∃ files g, l.loadPolicy c h = .ok files ∧
      g = Draft.grant files l.facts.caller l.facts.isSuid
        (Draft.capabilityRequest c (Draft.asksForTarget c l.facts.caller)) ∧
      r.plan.capabilities = (CapabilityClasses.uniform g.set).words ∧
      (g.noNewPrivileges = true → r.plan.noNewPrivs = true) := by
  obtain ⟨files, user, d₁, h₁, d₂, h₂, pinned, handles, ends, hfiles, hmade, himages, rfl⟩ :=
    prepare_fresh_ok hfresh hrun
  obtain ⟨-, -, maps, seccomp, hmaps, -, rfl, -⟩ := Draft.fresh_ok.mp hmade
  obtain ⟨outcome, root, overlays, binds, bindPaths, entered, -, henter, rfl⟩ :=
    Draft.withImages_ok himages
  cases maps with
  | some maps =>
      have hfake : (opening l c h).config.fakeroot = true := hmaps.1
      rw [opening_config] at hfake
      exact absurd hfake (by simp [hroot])
  | none =>
      have hrequest : Draft.capabilityRequest ((opening l c h).withUser user).config
          (Draft.asksForTarget c l.facts.caller) = Draft.capabilityRequest c
            (Draft.asksForTarget c l.facts.caller) := capabilityRequest_opening _
      obtain ⟨hcaps, hpriv⟩ := Draft.freshWith_process l files ((opening l c h).withUser user)
        (Draft.asksForTarget c l.facts.caller) seccomp
      rw [hrequest] at hcaps hpriv
      have hprocess : entered.config.process = (((opening l c h).withUser user).freshWith l files
          (Draft.asksForTarget c l.facts.caller) none seccomp).config.process := by
        rw [henter.same.1]
        rfl
      refine ⟨files, _, hfiles, rfl, ?_, ?_⟩
      · rw [closed_capabilities, ← hcaps, ← hprocess]
        rfl
      · intro hgrant
        rw [hgrant, Bool.or_true, ← hprocess] at hpriv
        exact hpriv

/-- A launch that joins an instance is given what its request adds and what the
instance had. -/
theorem join_capabilities (hjoin : c.instanceJoin.isSome = true)
    (hrun : (l.prepare c).perform h = (.ok r, h')) :
    ∃ files record original enforced, l.loadPolicy c h = .ok files ∧
      InstanceRecord.load h (Draft.recordPath h l.facts.caller c) = .ok record ∧
      Draft.instanceConfig record = .ok original ∧
      record.checkJoin l.facts.caller.uid l.facts.isSuid = .ok enforced ∧
      r.plan.capabilities = (CapabilityClasses.uniform
        (Draft.grant files l.facts.caller enforced { Draft.capabilityRequest c false with
          existing := original.process.capabilities.permitted }).set).words ∧
      r.plan.noNewPrivs =
        if l.facts.caller.isSuperuser then original.process.noNewPrivileges else true := by
  obtain ⟨files, record, original, d₁, h₁, handles, ends, hfiles, htake, rfl⟩ :=
    prepare_join_ok hjoin hrun
  obtain ⟨enforced, directory, h₂, seccomp, hexamined, -, -, rfl⟩ := Draft.takeOver_ok htake
  refine ⟨files, record, original, enforced, hfiles, ?_, hexamined.config_read,
    hexamined.privileged, ?_, rfl⟩
  · have hpath : Draft.recordPath (opened l c h) l.facts.caller (opening l c h).config =
        Draft.recordPath h l.facts.caller c := by
      rw [opening_config]
      rfl
    rw [← hpath]
    exact hexamined.record_loaded
  · rw [closed_capabilities, Draft.restorePrivileges_eq, Draft.takingOver_capabilities,
      Draft.joinGrant, Draft.asking_request, capabilityRequest_opening]

/-- A privileged launch joins only instances for which it has to be privileged. -/
theorem enforced_of_checkJoin {record : InstanceRecord} {uid : UInt32} {enforced : Bool}
    (hcheck : record.checkJoin uid true = .ok enforced) : enforced = true := by
  unfold InstanceRecord.checkJoin at hcheck
  cases hneeds : record.needsSuid uid with
  | true =>
      simp only [hneeds, Bool.not_true, Bool.and_false, Bool.false_eq_true, if_false,
        Bool.false_and] at hcheck
      split at hcheck
      · cases hcheck
      · exact (Except.ok.inj hcheck).symm
  | false => simp [hneeds] at hcheck

/-! ## Every privileged launch -/

theorem grant_enforced {files : AdminFiles} {caller : Caller} {q : CapabilityDemand}
    (huid : caller.uid ≠ 0) :
    Draft.grant files caller true q = Grant.forUser caller files.capabilities true q := by
  have hsuper : caller.isSuperuser = false := by
    simpa [Caller.isSuperuser] using huid
  simp [Draft.grant, hsuper]

/-- What a privileged launch hands on for a demand: one set in all five classes, with
what is demanded, granted and not dropped. -/
theorem words_forUser (caller : Caller) (t : CapabilityTable) (q : CapabilityDemand) :
    ∃ set : CapabilitySet,
      (CapabilityClasses.uniform (Grant.forUser caller t true q).set).words =
        ⟨set.bits, set.bits, set.bits, set.bits, set.bits⟩ ∧
      ∀ k : Capability, k ∈ set ↔
        (k.NamedIn q.add ∨ k.NamedIn q.existing) ∧ t.GrantsTo caller k ∧ ¬ k.NamedIn q.drop := by
  obtain ⟨set, hwords, hset⟩ := words_uniform_eq (Grant.forUser caller t true q).set
  exact ⟨set, hwords, fun k => (hset k).trans Grant.mem_forUser_enforced⟩

/-- A privileged launch of anybody but the superuser, unless it starts a container of a
fake superuser, hands on one set in all five classes and may not gain privileges.
A capability is in the set if and only if the request adds it or what the launch
restores has it permitted, the table grants it to the caller or to one of its
groups, and the request does not drop it. -/
theorem enforced_capabilities (hsuid : l.facts.isSuid = true) (huid : l.facts.caller.uid ≠ 0)
    (hroot : c.instanceJoin = none → c.fakeroot = false)
    (hrun : (l.prepare c).perform h = (.ok r, h')) :
    ∃ files source set, l.loadPolicy c h = .ok files ∧ RestoresFrom l c h source ∧
      r.plan.capabilities = ⟨set.bits, set.bits, set.bits, set.bits, set.bits⟩ ∧
      r.plan.noNewPrivs = true ∧
      ∀ k : Capability, k ∈ (set : CapabilitySet) ↔
        (k.NamedIn c.addCaps ∨ k.NamedIn source.process.capabilities.permitted) ∧
          files.capabilities.GrantsTo l.facts.caller k ∧ ¬ k.NamedIn c.dropCaps := by
  cases hjoin : c.instanceJoin with
  | none =>
      obtain ⟨files, g, hfiles, rfl, hcaps, hpriv⟩ := fresh_capabilities hjoin (hroot hjoin) hrun
      rw [hsuid, grant_enforced huid] at hcaps hpriv
      obtain ⟨set, hwords, hset⟩ := words_forUser l.facts.caller files.capabilities
        (Draft.capabilityRequest c (Draft.asksForTarget c l.facts.caller))
      exact ⟨files, c, set, hfiles, .fresh hjoin, hcaps.trans hwords, hpriv rfl, hset⟩
  | some name =>
      have hsome : c.instanceJoin.isSome = true := by rw [hjoin]; rfl
      obtain ⟨files, record, original, enforced, hfiles, hrecord, hconfig, hcheck, hcaps, hpriv⟩ :=
        join_capabilities hsome hrun
      rw [hsuid] at hcheck
      have henforced := enforced_of_checkJoin hcheck
      subst henforced
      have hsuper : l.facts.caller.isSuperuser = false := by
        simpa [Caller.isSuperuser] using huid
      rw [grant_enforced huid] at hcaps
      rw [hsuper] at hpriv
      obtain ⟨set, hwords, hset⟩ := words_forUser l.facts.caller files.capabilities
        { Draft.capabilityRequest c false with
          existing := original.process.capabilities.permitted }
      exact ⟨files, original, set, hfiles, .joined hsome record original hrecord hconfig,
        hcaps.trans hwords, hpriv, hset⟩

/-! ## A launch that asks for more than it is granted -/

/-- A host on which the table grants one capability to a user. -/
def tableHost : Host :=
  { Host.plain ⟨1000, 1000, 0, []⟩ [["etc"], ["etc", "stagehand"], ["image"]]
      [(["etc", "stagehand", "stagehand.yaml"], ""),
        (["etc", "stagehand", "capability.json"],
          "\x7b\"users\":\x7b\"alice\":[\"cap_net_raw\"]\x7d\x7d")] with
    users := ⟨[⟨"alice", 1000, 1000, "", "/", ""⟩], []⟩ }

/-- A request for two capabilities, one of which the table grants. -/
def twoCapabilities : String :=
  "\x7b\"image\":\"/image\",\"process\":\x7b\"args\":[\"sh\"]\x7d,\"addCaps\":[\"net_raw,CHOWN\"]\x7d"

theorem prepare_twoCapabilities :
    ∃ c r h', LaunchConfig.parse twoCapabilities = .ok c ∧
      (c.instanceJoin = none ∧ c.fakeroot = false) ∧
      ((onHost tableHost true).prepare c).perform tableHost = (.ok r, h') ∧
      r.plan.capabilities = ⟨8192, 8192, 8192, 8192, 8192⟩ := by
  obtain ⟨c, hparse, hc⟩ : ∃ c, LaunchConfig.parse twoCapabilities = .ok c ∧
      ((c.instanceJoin, c.fakeroot),
        ((((onHost tableHost true).prepare c).perform tableHost).1.toOption.map
          fun r => r.plan.capabilities)) =
        ((none, false), some ⟨8192, 8192, 8192, 8192, 8192⟩) :=
    Error.exists_ok_of_map (by decide +kernel)
  simp only [Prod.mk.injEq] at hc
  obtain ⟨hrequest, hcaps⟩ := hc
  obtain ⟨r, h', hrun, hcaps⟩ := Action.exists_perform_ok hcaps
  exact ⟨c, r, h', hparse, hrequest, hrun, hcaps⟩

theorem enforced_capabilities_twoCapabilities :
    ∃ c r h' files source set, LaunchConfig.parse twoCapabilities = .ok c ∧
      (onHost tableHost true).facts.caller.uid ≠ 0 ∧
      ((onHost tableHost true).prepare c).perform tableHost = (.ok r, h') ∧
      (onHost tableHost true).loadPolicy c tableHost = .ok files ∧
      RestoresFrom (onHost tableHost true) c tableHost source ∧
      r.plan.capabilities = ⟨8192, 8192, 8192, 8192, 8192⟩ ∧
      r.plan.capabilities = ⟨set.bits, set.bits, set.bits, set.bits, set.bits⟩ ∧
      r.plan.noNewPrivs = true ∧
      ∀ k : Capability, k ∈ (set : CapabilitySet) ↔
        (k.NamedIn c.addCaps ∨ k.NamedIn source.process.capabilities.permitted) ∧
          files.capabilities.GrantsTo (onHost tableHost true).facts.caller k ∧
          ¬ k.NamedIn c.dropCaps := by
  obtain ⟨c, r, h', hparse, ⟨-, hroot⟩, hrun, hcaps⟩ := prepare_twoCapabilities
  have huid : (onHost tableHost true).facts.caller.uid ≠ 0 := by decide
  obtain ⟨files, source, set, hfiles, hsource, hwords, hpriv, hset⟩ :=
    enforced_capabilities (by rfl) huid (fun _ => hroot) hrun
  exact ⟨c, r, h', files, source, set, hparse, huid, hrun, hfiles, hsource, hcaps, hwords, hpriv, hset⟩

end ContainerLaunch.Launcher
