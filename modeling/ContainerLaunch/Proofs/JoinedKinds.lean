import ContainerLaunch.Proofs.NamespaceSwitches
/-!
# Which kinds of namespace are joined by path

A new container joins a namespace of every kind that its request names by path and
the policy has not switched off.  Only a network namespace is authorized before that:
of the others nothing is looked at, neither on the host nor in the policy's lists.
-/

namespace ContainerLaunch

/-- The namespaces of a kind that a new container takes over from its request.  Where one
is created in any case, it takes the place of the first of them. -/
def LaunchConfig.takenOver (c : LaunchConfig) (k : NamespaceKind) : List Namespace :=
  if k = .mount ∨ k = .user ∧ c.fakeroot = true then (c.namespaces.ofKind k).tail
  else c.namespaces.ofKind k

/-- The path of the last namespace of a kind that is taken over and has one. -/
def LaunchConfig.requestedPath (c : LaunchConfig) (k : NamespaceKind) : Option Path :=
  ((c.takenOver k).filterMap Namespace.path).getLast?

theorem LaunchConfig.mem_of_mem_takenOver {c : LaunchConfig} {k : NamespaceKind} {n : Namespace}
    (hn : n ∈ c.takenOver k) : n ∈ c.namespaces.items ∧ n.kind = k := by
  have hkind : n ∈ c.namespaces.ofKind k := by
    unfold takenOver at hn
    split at hn
    · exact List.mem_of_mem_tail hn
    · exact hn
  simpa [NamespaceList.ofKind] using hkind

theorem LaunchConfig.requestedPath_eq_none {c : LaunchConfig} {k : NamespaceKind} :
    c.requestedPath k = none ↔ ∀ n ∈ c.takenOver k, n.path = none := by
  rw [requestedPath, List.getLast?_eq_none_iff, List.filterMap_eq_nil_iff]

namespace Launcher

variable {l : Launcher} {c : LaunchConfig} {h h' : Host} {r : ReadyLaunch}

section Planned

variable {files : AdminFiles} {maps : Option SubordinateMaps} {k : NamespaceKind}

/-- A new namespace in front of those that are taken over has no path, so the paths are
theirs alone. -/
theorem Planned.paths_eq (hplan : Planned l c h r files maps) :
    (r.config.namespaces.ofKind k).filterMap Namespace.path =
      if files.policy.allowsKind k then (c.takenOver k).filterMap Namespace.path else [] := by
  have hroot : maps.isSome = c.fakeroot := by
    have hmade := hplan.maps_made
    cases maps with
    | none => exact hmade.symm
    | some m => exact hmade.1.symm
  rw [hplan.ofKind_eq]
  by_cases hallow : files.policy.allowsKind k = true
  · rw [if_pos hallow, if_pos hallow]
    by_cases huser : k = .user ∧ maps.isSome = true
    · have htaken : c.takenOver k = (c.namespaces.ofKind .user).tail := by
        obtain ⟨rfl, hsome⟩ := huser
        exact if_pos (Or.inr ⟨rfl, hroot ▸ hsome⟩)
      rw [if_pos huser, htaken]
      rfl
    · -- Of the other kinds only the mount namespace gets one of its own in front.
      rw [if_neg huser]
      by_cases hmount : k = .mount
      · subst hmount
        rw [NamespaceList.ofKind_add_create]
        rfl
      · have htaken : c.takenOver k = c.namespaces.ofKind k := by
          apply if_neg
          rintro (hk | hk)
          · exact hmount hk
          · exact huser (hroot ▸ hk)
        rw [NamespaceList.ofKind_add fun heq => hmount heq.symm, htaken]
  · rw [if_neg hallow, if_neg hallow]
    rfl

theorem Planned.joinPaths_eq_requestedPath (hplan : Planned l c h r files maps) :
    r.plan.joinPaths k = if files.policy.allowsKind k then c.requestedPath k else none := by
  rw [hplan.joinPaths_eq, NamespaceList.lastPath, hplan.paths_eq]
  split
  · rfl
  · rfl

end Planned

/-- A new container that is ready joins, for every kind of namespace that the policy has
not switched off, the path that its request names for that kind.  So it joins nothing
but a network if and only if no namespace of another kind that it takes over has a
path, and in particular if the request names a path for networks only. -/
theorem only_networks_joined_iff (hfresh : c.instanceJoin = none)
    (hrun : (l.prepare c).perform h = (.ok r, h')) :
    ∃ files, l.loadPolicy c h = .ok files ∧
      (∀ k, r.plan.joinPaths k =
        if files.policy.allowsKind k then c.requestedPath k else none) ∧
      ((∀ k, k ≠ .network → r.plan.joinPaths k = none) ↔
        ∀ k, k ≠ .network → files.policy.allowsKind k = true →
          ∀ n ∈ c.takenOver k, n.path = none) ∧
      ((∀ n ∈ c.namespaces.items, n.path ≠ none → n.kind = .network) →
        ∀ k, k ≠ .network → r.plan.joinPaths k = none) := by
  obtain ⟨files, maps, hplan⟩ := planned_of_prepare hfresh hrun
  have hjoined : ∀ k, r.plan.joinPaths k =
      if files.policy.allowsKind k then c.requestedPath k else none := by
    intro k
    exact hplan.joinPaths_eq_requestedPath
  have hnone : (∀ k, k ≠ .network → r.plan.joinPaths k = none) ↔
      ∀ k, k ≠ .network → files.policy.allowsKind k = true →
        ∀ n ∈ c.takenOver k, n.path = none := by
    constructor
    · intro hall k hk hallow
      have hpath := hall k hk
      rw [hjoined, if_pos hallow] at hpath
      exact LaunchConfig.requestedPath_eq_none.mp hpath
    · intro hall k hk
      rw [hjoined]
      by_cases hallow : files.policy.allowsKind k = true
      · rw [if_pos hallow]
        exact LaunchConfig.requestedPath_eq_none.mpr (hall k hk hallow)
      · rw [if_neg hallow]
  refine ⟨files, hplan.files_loaded, hjoined, hnone, ?_⟩
  intro honly
  apply hnone.mpr
  intro k hk _ n hn
  obtain ⟨hmem, hkind⟩ := LaunchConfig.mem_of_mem_takenOver hn
  by_contra hpath
  exact hk (hkind.symm.trans (honly n hmem hpath))

/-! ## A process namespace by its path -/

/-- A host of a privileged installation, without a process 1. -/
def lonelyHost : Host :=
  .plain ⟨1000, 1000, 1000, []⟩ [["etc"], ["etc", "stagehand"], ["image"]]
    [(["etc", "stagehand", "stagehand.yaml"], "")]

/-- A request to join the process namespace of process 1. -/
def processOfInit : String :=
  "\x7b\"image\":\"/image\",\"process\":\x7b\"args\":[\"sh\"]\x7d,\"namespaces\":[" ++
    "\x7b\"type\":\"pid\",\"path\":\"/proc/1/ns/pid\"\x7d]\x7d"

theorem prepare_processOfInit :
    ∃ c r h', LaunchConfig.parse processOfInit = .ok c ∧ c.instanceJoin = none ∧
      (onHost lonelyHost true).facts.caller.euid ≠ 0 ∧
      ((onHost lonelyHost true).prepare c).perform lonelyHost = (.ok r, h') ∧
      r.plan.joinPaths .pid = some ⟨"/proc/1/ns/pid"⟩ := by
  obtain ⟨c, hparse, hc⟩ : ∃ c, LaunchConfig.parse processOfInit = .ok c ∧
      (c.instanceJoin,
        (((onHost lonelyHost true).prepare c).perform lonelyHost).1.toOption.map
          fun r => r.plan.joinPaths .pid) =
      (none, some (some ⟨"/proc/1/ns/pid"⟩)) :=
    Error.exists_ok_of_map (by decide +kernel)
  simp only [Prod.mk.injEq] at hc
  obtain ⟨hfresh, hready⟩ := hc
  obtain ⟨r, h', hrun, hjoined⟩ := Action.exists_perform_ok hready
  exact ⟨c, r, h', hparse, hfresh, by decide, hrun, hjoined⟩

/-- The path that is joined is the one that the request names, and because it names one
the launch joins more than a network. -/
theorem only_networks_joined_iff_processOfInit :
    ∃ c r h' files, c.instanceJoin = none ∧
      ((onHost lonelyHost true).prepare c).perform lonelyHost = (.ok r, h') ∧
      (onHost lonelyHost true).loadPolicy c lonelyHost = .ok files ∧
      r.plan.joinPaths .pid = c.requestedPath .pid ∧
      ¬ ∀ k, k ≠ .network → files.policy.allowsKind k = true →
        ∀ n ∈ c.takenOver k, n.path = none := by
  obtain ⟨c, r, h', -, hfresh, -, hrun, hpid⟩ := prepare_processOfInit
  obtain ⟨files, hfiles, hjoined, hnone, -⟩ := only_networks_joined_iff hfresh hrun
  refine ⟨c, r, h', files, hfresh, hrun, hfiles, ?_, ?_⟩
  · have hpath := hjoined .pid
    split at hpath
    · exact hpath
    · rw [hpid] at hpath
      cases hpath
  · intro hall
    have hpath := hnone.mpr hall .pid (by decide)
    rw [hpid] at hpath
    cases hpath

/-- A caller without privileges joins the process namespace that it names by path, although
there is nothing at that path. -/
theorem process_namespace_joined :
    ∃ c r h', LaunchConfig.parse processOfInit = .ok c ∧ c.instanceJoin = none ∧
      (onHost lonelyHost true).facts.caller.euid ≠ 0 ∧
      ((onHost lonelyHost true).prepare c).perform lonelyHost = (.ok r, h') ∧
      lonelyHost.exists? ⟨"/proc/1/ns/pid"⟩ = false ∧
      ¬ ∀ k, k ≠ .network → r.plan.joinPaths k = none := by
  obtain ⟨c, r, h', hparse, hfresh, heuid, hrun, hpid⟩ := prepare_processOfInit
  refine ⟨c, r, h', hparse, hfresh, heuid, hrun, by decide +kernel, ?_⟩
  intro hall
  have hpath := hall .pid (by decide)
  rw [hpid] at hpath
  cases hpath

end Launcher
end ContainerLaunch
