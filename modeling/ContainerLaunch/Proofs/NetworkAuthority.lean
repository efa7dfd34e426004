import ContainerLaunch.Proofs.Launch.Planned
/-!
# Who joins a network namespace

The network namespace whose path is authorized is the first one of the request,
and the one that is joined is the last one with a path.  A request with one
network namespace therefore joins only what was granted to its caller, and a
request with several may join any other path.
-/

namespace ContainerLaunch

/-! ## What a grant of a network is -/

/-- A network namespace that a caller may join: it is there, the policy lists it,
and the policy names the caller or one of its groups. -/
structure NetworkGranted (p : Policy) (h : Host) (c : Caller) (path : Path) : Prop where
  found : ∃ inode, h.stat path = .ok inode
  listed : ∃ allowed ∈ p.allowNetnsPaths, path.same allowed = true
  named : c.isInUsers p.allowNetUsers = true ∨ c.isInGroups p.allowNetGroups = true

namespace NamespaceList

variable {s : NamespaceList} {h : Host} {p : Policy} {c : Caller} {path : Path}

theorem mayJoinNetwork_ok :
    mayJoinNetwork p c path = .ok () ↔
      (∃ allowed ∈ p.allowNetnsPaths, path.same allowed = true) ∧
        (c.isInUsers p.allowNetUsers = true ∨ c.isInGroups p.allowNetGroups = true) := by
  unfold mayJoinNetwork
  by_cases hlisted : p.allowNetnsPaths.any path.same = true
  · by_cases husers : c.isInUsers p.allowNetUsers = true
    · simp only [hlisted, husers, Bool.not_true, Bool.false_and, Bool.false_eq_true, if_false,
        true_or, and_true, true_iff]
      simpa using hlisted
    · simp only [hlisted, husers, Bool.not_true, Bool.not_false, Bool.true_and,
        Bool.false_eq_true, if_false, false_or]
      by_cases hgroups : c.isInGroups p.allowNetGroups = true
      · simpa [hgroups] using hlisted
      · simp [hgroups]
  · have hnone : ¬ ∃ allowed ∈ p.allowNetnsPaths, path.same allowed = true := by
      simpa using hlisted
    simp [hlisted, hnone]

/-- Authorization ends with the path of the first network namespace, and with no
other one. -/
theorem authorizeNetwork_eq_networkPath {joined : Option Path}
    (hauth : s.authorizeNetwork h p c = .ok joined) : joined = s.networkPath := by
  unfold authorizeNetwork at hauth
  cases hpath : s.networkPath with
  | none =>
      simp only [hpath, Except.ok.injEq] at hauth
      exact hauth.symm
  | some path =>
      simp only [hpath] at hauth
      cases hstat : h.stat path with
      | error cause => simp [hstat] at hauth
      | ok inode =>
          simp only [hstat] at hauth
          split at hauth
          · exact (Except.ok.inj hauth).symm
          · obtain ⟨_, -, hjoined⟩ := Error.map_eq_ok.mp hauth
            exact hjoined.symm

theorem granted_of_authorizeNetwork (heuid : c.euid ≠ 0)
    (hauth : s.authorizeNetwork h p c = .ok (some path)) : NetworkGranted p h c path := by
  have hpath : s.networkPath = some path := (authorizeNetwork_eq_networkPath hauth).symm
  have hroot : (c.euid == 0) = false := by simpa using heuid
  simp only [authorizeNetwork, hpath, hroot] at hauth
  cases hstat : h.stat path with
  | error cause => simp [hstat] at hauth
  | ok inode =>
      simp only [hstat, Bool.false_eq_true, if_false] at hauth
      obtain ⟨_, hmay, -⟩ := Error.map_eq_ok.mp hauth
      obtain ⟨hlisted, hnamed⟩ := mayJoinNetwork_ok.mp hmay
      exact ⟨⟨inode, hstat⟩, hlisted, hnamed⟩

end NamespaceList

/-! ## What a launch joins -/

namespace Launcher

variable {l : Launcher} {c : LaunchConfig} {h h' : Host} {r : ReadyLaunch}

/-- A new container joins the network of the last namespace with a path, after the
first one was authorized. -/
theorem fresh_network (hfresh : c.instanceJoin = none)
    (hrun : (l.prepare c).perform h = (.ok r, h')) :
    ∃ files, l.loadPolicy c h = .ok files ∧
      (l.namespacesLeft files.policy c).authorizeNetwork h files.policy l.facts.caller =
        .ok c.namespaces.networkPath ∧
      r.plan.joinPaths .network = c.namespaces.lastPath .network := by
  obtain ⟨files, maps, hplan⟩ := planned_of_prepare hfresh hrun
  obtain ⟨joined, hauth⟩ := hplan.network_authorized
  have hleft : (l.namespacesLeft files.policy c).ofKind .network =
      c.namespaces.ofKind .network := ofKind_namespacesLeft files.policy (Or.inr rfl)
  have hfinal : r.config.namespaces.ofKind .network = c.namespaces.ofKind .network := by
    rw [hplan.namespaces_eq, Draft.ofKind_rootedNamespaces (by decide)]
    exact hleft
  refine ⟨files, hplan.files_loaded, ?_, ?_⟩
  · have hjoined := NamespaceList.authorizeNetwork_eq_networkPath hauth
    rw [NamespaceList.networkPath_congr hleft] at hjoined
    rw [← hjoined]
    exact hauth
  · rw [hplan.joinPaths_eq]
    exact NamespaceList.lastPath_congr hfinal

/-- A launch that is not the superuser's joins the network of the last namespace of
the request that has a path.  That path was authorized if and only if the first
network namespace names it too; then it is there, the policy lists it and names
the caller.  With at most one network namespace this is always so. -/
theorem joined_network_authorized_iff (hfresh : c.instanceJoin = none)
    (heuid : l.facts.caller.euid ≠ 0) (hrun : (l.prepare c).perform h = (.ok r, h')) :
    ∃ files, l.loadPolicy c h = .ok files ∧
      r.plan.joinPaths .network = c.namespaces.lastPath .network ∧
      (∀ path, r.plan.joinPaths .network = some path →
        ((l.namespacesLeft files.policy c).authorizeNetwork h files.policy l.facts.caller =
          .ok (some path) ↔ c.namespaces.networkPath = some path)) ∧
      (∀ path, c.namespaces.networkPath = some path →
        NetworkGranted files.policy h l.facts.caller path) ∧
      ((c.namespaces.ofKind .network).length ≤ 1 →
        ∀ path, r.plan.joinPaths .network = some path →
          NetworkGranted files.policy h l.facts.caller path) := by
  obtain ⟨files, hfiles, hauth, hjoined⟩ := fresh_network hfresh hrun
  have hgranted : ∀ path, c.namespaces.networkPath = some path →
      NetworkGranted files.policy h l.facts.caller path := by
    intro path hpath
    exact NamespaceList.granted_of_authorizeNetwork heuid (hauth.trans (by rw [hpath]))
  refine ⟨files, hfiles, hjoined, ?_, hgranted, ?_⟩
  · intro path _
    rw [hauth, Except.ok.injEq]
  · intro hone path hpath
    apply hgranted
    rw [NamespaceList.networkPath_eq_lastPath hone, ← hjoined]
    exact hpath

/-! ## Two network namespaces -/

/-- A host whose policy lets a user join one of two network namespaces. -/
def networkHost : Host :=
  .plain ⟨1000, 1000, 1000, []⟩
    [["etc"], ["etc", "stagehand"], ["image"], ["netns"]]
    [(["etc", "stagehand", "stagehand.yaml"],
        "allow-netns-paths: [/netns/lab]\nallow-net-users: ['1000']\n"),
      (["netns", "lab"], ""), (["netns", "admin"], "")]

/-- A request to join first the network namespace that is allowed and then the other
one. -/
def twoNetworks : String :=
  "\x7b\"image\":\"/image\",\"process\":\x7b\"args\":[\"sh\"]\x7d,\"namespaces\":[" ++
    "\x7b\"type\":\"network\",\"path\":\"/netns/lab\"\x7d," ++
    "\x7b\"type\":\"network\",\"path\":\"/netns/admin\"\x7d]\x7d"

theorem prepare_twoNetworks :
    ∃ c r h' files, LaunchConfig.parse twoNetworks = .ok c ∧ c.instanceJoin = none ∧
      ((onHost networkHost false).prepare c).perform networkHost = (.ok r, h') ∧
      (onHost networkHost false).loadPolicy c networkHost = .ok files ∧
      files.policy.allowNetnsPaths = [⟨"/netns/lab"⟩] ∧
      r.plan.joinPaths .network = some ⟨"/netns/admin"⟩ := by
  obtain ⟨c, hparse, hc⟩ : ∃ c, LaunchConfig.parse twoNetworks = .ok c ∧
      (c.instanceJoin,
        ((onHost networkHost false).loadPolicy c networkHost).toOption.map
          fun files => files.policy.allowNetnsPaths,
        (((onHost networkHost false).prepare c).perform networkHost).1.toOption.map
          fun r => r.plan.joinPaths .network) =
      (none, some [⟨"/netns/lab"⟩], some (some ⟨"/netns/admin"⟩)) :=
    Error.exists_ok_of_map (by decide +kernel)
  simp only [Prod.mk.injEq] at hc
  obtain ⟨hfresh, hfiles, hjoined⟩ := hc
  obtain ⟨files, hfiles, hpaths⟩ := Error.exists_ok_of_map hfiles
  obtain ⟨r, h', hrun, hjoined⟩ := Action.exists_perform_ok hjoined
  exact ⟨c, r, h', files, hparse, hfresh, hrun, hfiles, hpaths, hjoined⟩

theorem joined_network_authorized_iff_twoNetworks :
    ∃ c r h' files, c.instanceJoin = none ∧ (onHost networkHost false).facts.caller.euid ≠ 0 ∧
      ((onHost networkHost false).prepare c).perform networkHost = (.ok r, h') ∧
      (onHost networkHost false).loadPolicy c networkHost = .ok files ∧
      r.plan.joinPaths .network = c.namespaces.lastPath .network ∧
      ∀ path, c.namespaces.networkPath = some path →
        NetworkGranted files.policy networkHost (onHost networkHost false).facts.caller path := by
  obtain ⟨c, r, h', -, -, hfresh, hrun, -, -, -⟩ := prepare_twoNetworks
  have heuid : (onHost networkHost false).facts.caller.euid ≠ 0 := by decide
  obtain ⟨files, hfiles, hlast, -, hgranted, -⟩ :=
    joined_network_authorized_iff hfresh heuid hrun
  exact ⟨c, r, h', files, hfresh, heuid, hrun, hfiles, hlast, hgranted⟩

/-- A request for two network namespaces joins one that the policy does not list. -/
theorem unlisted_network_joined :
    ∃ c r h' files, LaunchConfig.parse twoNetworks = .ok c ∧ c.instanceJoin = none ∧
      (onHost networkHost false).facts.caller.euid ≠ 0 ∧
      ((onHost networkHost false).prepare c).perform networkHost = (.ok r, h') ∧
      (onHost networkHost false).loadPolicy c networkHost = .ok files ∧
      r.plan.joinPaths .network = some ⟨"/netns/admin"⟩ ∧
      ¬ NetworkGranted files.policy networkHost (onHost networkHost false).facts.caller
        ⟨"/netns/admin"⟩ := by
  obtain ⟨c, r, h', files, hparse, hfresh, hrun, hfiles, hpaths, hjoined⟩ := prepare_twoNetworks
  refine ⟨c, r, h', files, hparse, hfresh, by decide, hrun, hfiles, hjoined, ?_⟩
  intro hgranted
  obtain ⟨allowed, hallowed, hsame⟩ := hgranted.listed
  rw [hpaths, List.mem_singleton] at hallowed
  subst hallowed
  revert hsame
  decide +kernel

end Launcher
end ContainerLaunch
