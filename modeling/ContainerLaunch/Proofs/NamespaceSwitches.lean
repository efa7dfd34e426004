import ContainerLaunch.Proofs.Launch.Planned
/-!
# Namespaces that are switched off

The policy has switches for user, IPC, host name and process namespaces.  The last
three are taken out of a request where they are switched off, a user namespace ends
the launch, and the other kinds always stay.  A fake superuser gets a new user
namespace after that, but only where user namespaces are allowed.
-/

namespace ContainerLaunch

/-- Whether a policy lets containers have namespaces of a kind. -/
def Policy.allowsKind (p : Policy) : NamespaceKind → Bool
  | .user => p.allowUserNs
  | .ipc => p.allowIpcNs
  | .uts => p.allowUtsNs
  | .pid => p.allowPidNs
  | .network | .mount | .cgroup => true

namespace NamespaceList

variable {s : NamespaceList} {p : Policy} {k : NamespaceKind} {suidInstall hostnameWanted : Bool}

/-! ## What a ruling leaves -/

theorem ofKind_withoutForbidden_self (s : NamespaceList) (allowed : Bool) (k : NamespaceKind) :
    (s.withoutForbidden allowed k).1.ofKind k = if allowed then s.ofKind k else [] := by
  unfold withoutForbidden
  cases allowed with
  | true => simp
  | false =>
      cases hhas : s.has k with
      | true => simp [ofKind_erase_self]
      | false => simp [has_eq_false_iff.mp hhas]

theorem checkUser_ok {allowed : Bool} {u : Unit} :
    s.checkUser allowed suidInstall = .ok u ↔
      (allowed = false → suidInstall = true ∧ s.has .user = false) := by
  unfold checkUser
  cases allowed <;> cases suidInstall <;> cases s.has .user <;> simp

/-- A ruling is in favour of a launch exactly if the launch can do without a user
namespace where there may not be one. -/
theorem verdict_underPolicy :
    (s.underPolicy p suidInstall hostnameWanted).verdict = .ok () ↔
      (p.allowUserNs = false → suidInstall = true ∧ s.has .user = false) := by
  have huser : ((((s.add (.create .mount)).withoutForbidden p.allowIpcNs .ipc).1
      ).withoutForbidden p.allowPidNs .pid).1.has .user = s.has .user := by
    apply has_congr
    rw [ofKind_withoutForbidden (by decide), ofKind_withoutForbidden (by decide),
      ofKind_add (by decide)]
  simp only [underPolicy]
  split
  · next e hcheck => rw [← huser, ← checkUser_ok (u := ()), hcheck]
  · next hcheck => rw [← huser, ← checkUser_ok (u := ()), hcheck]

/-- A ruling in favour of a launch leaves the namespaces of every kind that is allowed, with
a mount namespace, and takes out all others. -/
theorem ofKind_underPolicy_of_ok
    (hok : (s.underPolicy p suidInstall hostnameWanted).verdict = .ok ()) :
    (s.underPolicy p suidInstall hostnameWanted).namespaces.ofKind k =
      if p.allowsKind k then (s.add (.create .mount)).ofKind k else [] := by
  have hleft : (s.underPolicy p suidInstall hostnameWanted).namespaces =
      (((((s.add (.create .mount)).withoutForbidden p.allowIpcNs .ipc).1
        ).withoutForbidden p.allowPidNs .pid).1.withoutForbidden p.allowUtsNs .uts).1 := by
    simp only [underPolicy] at hok ⊢
    split at hok
    · cases hok
    · rfl
  -- a user namespace is not taken out: where it is switched off there was none
  have huser : p.allowUserNs = false → s.ofKind .user = [] := by
    intro hoff
    exact has_eq_false_iff.mp (verdict_underPolicy.mp hok hoff).2
  rw [hleft]
  cases k with
  | user =>
      rw [ofKind_withoutForbidden (by decide), ofKind_withoutForbidden (by decide),
        ofKind_withoutForbidden (by decide), ofKind_add (by decide)]
      cases hallow : p.allowUserNs with
      | true => simp [Policy.allowsKind, hallow]
      | false => simp [Policy.allowsKind, hallow, huser hallow]
  | ipc =>
      rw [ofKind_withoutForbidden (by decide), ofKind_withoutForbidden (by decide),
        ofKind_withoutForbidden_self]
      rfl
  | uts =>
      rw [ofKind_withoutForbidden_self, ofKind_withoutForbidden (by decide),
        ofKind_withoutForbidden (by decide)]
      rfl
  | pid =>
      rw [ofKind_withoutForbidden (by decide), ofKind_withoutForbidden_self,
        ofKind_withoutForbidden (by decide)]
      rfl
  | network | mount | cgroup =>
      rw [ofKind_withoutForbidden (by decide), ofKind_withoutForbidden (by decide),
        ofKind_withoutForbidden (by decide)]
      rfl

end NamespaceList

/-! ## What a plan has -/

namespace Launcher

variable {l : Launcher} {c : LaunchConfig} {h h' : Host} {r : ReadyLaunch}

section Planned

variable {files : AdminFiles} {maps : Option SubordinateMaps} {k : NamespaceKind}

/-- The namespaces of a kind that a plan has: those that the policy leaves, and for a fake
superuser a new user namespace in the place of the first one. -/
theorem Planned.ofKind_eq (hplan : Planned l c h r files maps) :
    r.config.namespaces.ofKind k =
      if files.policy.allowsKind k then
        if k = .user ∧ maps.isSome = true then
          .create .user :: (c.namespaces.ofKind .user).tail
        else (c.namespaces.add (.create .mount)).ofKind k
      else [] := by
  have hleft : (l.namespacesLeft files.policy c).ofKind k = _ :=
    NamespaceList.ofKind_underPolicy_of_ok hplan.verdict_ok
  rw [hplan.namespaces_eq]
  cases hmaps : maps with
  | none => simpa [Draft.rootedNamespaces] using hleft
  | some m =>
      have hallow : files.policy.allowUserNs = true := by
        have hmade := hplan.maps_made
        rw [hmaps] at hmade
        exact hmade.2.1
      by_cases hk : k = .user
      · subst hk
        have hself : ((l.namespacesLeft files.policy c).add (.create .user)).ofKind .user =
            .create .user :: (c.namespaces.ofKind .user).tail := by
          rw [NamespaceList.ofKind_add_create, ofKind_namespacesLeft files.policy (Or.inl rfl)]
        simpa [Draft.rootedNamespaces, Policy.allowsKind, hallow] using hself
      · rw [Draft.ofKind_rootedNamespaces fun heq => hk heq.symm]
        simpa [hk] using hleft

theorem Planned.has_of_allowed (hplan : Planned l c h r files maps)
    (hallow : files.policy.allowsKind k = true) (hhas : c.namespaces.has k = true) :
    r.config.namespaces.has k = true := by
  rw [NamespaceList.has_iff_ofKind] at hhas ⊢
  rw [hplan.ofKind_eq, if_pos hallow]
  split
  · exact List.cons_ne_nil _ _
  · by_cases hk : k = .mount
    · subst hk
      rw [NamespaceList.ofKind_add_create]
      exact List.cons_ne_nil _ _
    · rw [NamespaceList.ofKind_add fun heq => hk heq.symm]
      exact hhas

end Planned

/-- A new container that is ready has its own mounts.  Its plan neither creates nor joins
a namespace of a kind that the policy has switched off, and everything else that was
asked for is still in its configuration.  Where user namespaces are switched off, the
installation is privileged and nobody asked to be a fake superuser. -/
theorem namespace_switches_hold (hfresh : c.instanceJoin = none)
    (hrun : (l.prepare c).perform h = (.ok r, h')) :
    ∃ files, l.loadPolicy c h = .ok files ∧
      NamespaceKind.mount.IsCreatedBy r.plan.creationFlags ∧
      (∀ k, files.policy.allowsKind k = false →
        ¬ k.IsCreatedBy r.plan.creationFlags ∧ r.plan.joinPaths k = none) ∧
      (files.policy.allowUserNs = false →
        l.facts.suidInstall = true ∧ c.fakeroot = false) ∧
      ∀ k, c.namespaces.has k = true → files.policy.allowsKind k = true →
        r.config.namespaces.has k = true := by
  obtain ⟨files, maps, hplan⟩ := planned_of_prepare hfresh hrun
  refine ⟨files, hplan.files_loaded, ?_, ?_, ?_, ?_⟩
  · have hmount : r.config.namespaces.ofKind .mount =
        .create .mount :: (c.namespaces.ofKind .mount).tail := by
      rw [hplan.ofKind_eq]
      exact NamespaceList.ofKind_add_create _ _
    rw [hplan.creationFlags_eq, NamespaceList.isCreatedBy_creationFlags, hmount]
    exact ⟨_, List.mem_cons_self, rfl⟩
  · intro k hoff
    have hnone : r.config.namespaces.ofKind k = [] := by
      rw [hplan.ofKind_eq, hoff]
      rfl
    rw [hplan.creationFlags_eq, NamespaceList.isCreatedBy_creationFlags, hplan.joinPaths_eq,
      NamespaceList.lastPath, hnone]
    simp
  · intro hoff
    refine ⟨(NamespaceList.verdict_underPolicy.mp hplan.verdict_ok hoff).1, ?_⟩
    have hmade := hplan.maps_made
    cases maps with
    | none => exact hmade
    | some m =>
        rw [hmade.2.1] at hoff
        cases hoff
  · intro k hhas hallow
    exact hplan.has_of_allowed hallow hhas

/-- A host whose policy has switched process and user namespaces off. -/
def switchedHost : Host :=
  .plain ⟨1000, 1000, 1000, []⟩
    [["etc"], ["etc", "stagehand"], ["image"]]
    [(["etc", "stagehand", "stagehand.yaml"], "allow-pid-ns: no\nallow-user-ns: no\n")]

/-- A request for a new process namespace, another one to join and a host name
namespace. -/
def processNamespaces : String :=
  "\x7b\"image\":\"/image\",\"process\":\x7b\"args\":[\"sh\"]\x7d,\"namespaces\":[" ++
    "\x7b\"type\":\"pid\"\x7d,\x7b\"type\":\"pid\",\"path\":\"/proc/1/ns/pid\"\x7d," ++
    "\x7b\"type\":\"uts\"\x7d]\x7d"

theorem prepare_processNamespaces :
    ∃ c r h' files, LaunchConfig.parse processNamespaces = .ok c ∧ c.instanceJoin = none ∧
      [NamespaceKind.pid, .uts].map c.namespaces.has = [true, true] ∧
      ((onHost switchedHost false).prepare c).perform switchedHost = (.ok r, h') ∧
      (onHost switchedHost false).loadPolicy c switchedHost = .ok files ∧
      NamespaceKind.all.map files.policy.allowsKind =
        [false, true, true, false, true, true, true] := by
  obtain ⟨c, hparse, hc⟩ : ∃ c, LaunchConfig.parse processNamespaces = .ok c ∧
      (c.instanceJoin, [NamespaceKind.pid, .uts].map c.namespaces.has,
        ((onHost switchedHost false).loadPolicy c switchedHost).toOption.map
          fun files => NamespaceKind.all.map files.policy.allowsKind,
        (((onHost switchedHost false).prepare c).perform switchedHost).1.toOption.map
          fun _ => ()) =
      (none, [true, true], some [false, true, true, false, true, true, true], some ()) :=
    Error.exists_ok_of_map (by decide +kernel)
  simp only [Prod.mk.injEq] at hc
  obtain ⟨hfresh, hkinds, hfiles, hready⟩ := hc
  obtain ⟨files, hfiles, hallows⟩ := Error.exists_ok_of_map hfiles
  obtain ⟨r, h', hrun, -⟩ := Action.exists_perform_ok hready
  exact ⟨c, r, h', files, hparse, hfresh, hkinds, hrun, hfiles, hallows⟩

/-- The process namespaces of this request are taken out, and its host name namespace
stays. -/
theorem namespace_switches_hold_processNamespaces :
    ∃ c r h' files, c.instanceJoin = none ∧
      ((onHost switchedHost false).prepare c).perform switchedHost = (.ok r, h') ∧
      (onHost switchedHost false).loadPolicy c switchedHost = .ok files ∧
      c.namespaces.has .pid = true ∧ files.policy.allowsKind .pid = false ∧
      ¬ NamespaceKind.pid.IsCreatedBy r.plan.creationFlags ∧ r.plan.joinPaths .pid = none ∧
      ¬ NamespaceKind.user.IsCreatedBy r.plan.creationFlags ∧ c.fakeroot = false ∧
      r.config.namespaces.has .uts = true := by
  obtain ⟨c, r, h', files, -, hfresh, hkinds, hrun, hfiles, hallows⟩ := prepare_processNamespaces
  simp only [NamespaceKind.all, List.map_cons, List.map_nil, List.cons.injEq, and_true]
    at hkinds hallows
  obtain ⟨hpid, huts⟩ := hkinds
  obtain ⟨huser, -, hutsAllowed, hpidOff, -⟩ := hallows
  obtain ⟨files', hfiles', -, hoff, hroot, hleft⟩ := namespace_switches_hold hfresh hrun
  cases Except.ok.inj (hfiles'.symm.trans hfiles)
  exact ⟨c, r, h', files, hfresh, hrun, hfiles, hpid, hpidOff, (hoff .pid hpidOff).1,
    (hoff .pid hpidOff).2, (hoff .user huser).1, (hroot huser).2, hleft .uts huts hutsAllowed⟩

end Launcher
end ContainerLaunch
