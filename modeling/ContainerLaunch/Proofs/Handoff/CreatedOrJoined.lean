import ContainerLaunch.Proofs.Handoff.Register
import ContainerLaunch.Proofs.NamespaceSwitches
/-!
# Namespaces on their way to the next stage

A region says of every kind of namespace whether a new one is made, by a flag, and
which one is joined, by a path.  A kind that is asked for once, and not by an empty path,
is either made or joined.  A list with several namespaces of a kind can ask for both, and
an empty path, which in a region stands for nothing to join, asks for neither.
-/

namespace ContainerLaunch

namespace NamespaceList

variable {s : NamespaceList} {k : NamespaceKind}

theorem lastPath_eq_none_iff : s.lastPath k = none ↔ ∀ n ∈ s.ofKind k, n.path = none := by
  rw [lastPath, List.getLast?_eq_none_iff, List.filterMap_eq_nil_iff]

/-- Every namespace of a kind has a path, and the last one is empty. -/
def LosesKind (s : NamespaceList) (k : NamespaceKind) : Prop :=
  (∀ n ∈ s.ofKind k, n.path ≠ none) ∧ s.lastPath k = some ⟨""⟩

/-- One namespace of a kind has no path, and the last path of that kind is not empty. -/
def DoublesKind (s : NamespaceList) (k : NamespaceKind) : Prop :=
  (∃ n ∈ s.ofKind k, n.path = none) ∧ ∃ path, s.lastPath k = some path ∧ path.text ≠ ""

/-- A kind that is asked for in some way is lost exactly if it is asked for neither as a
new namespace nor by a path that can be read back. -/
theorem losesKind_iff (hsome : s.ofKind k ≠ []) :
    s.LosesKind k ↔ ¬ (∃ n ∈ s.ofKind k, n.path = none) ∧
      ¬ ∃ path, s.lastPath k = some path ∧ path.text ≠ "" := by
  constructor
  · rintro ⟨hpaths, hempty⟩
    constructor
    · rintro ⟨n, hn, hnone⟩
      exact hpaths n hn hnone
    · rintro ⟨path, hlast, htext⟩
      rw [hempty] at hlast
      cases hlast
      exact htext rfl
  · rintro ⟨hnew, hread⟩
    have hpaths : ∀ n ∈ s.ofKind k, n.path ≠ none := by
      intro n hn hnone
      exact hnew ⟨n, hn, hnone⟩
    refine ⟨hpaths, ?_⟩
    cases hlast : s.lastPath k with
    | none =>
        obtain ⟨n, hn⟩ := List.exists_mem_of_ne_nil _ hsome
        exact absurd (lastPath_eq_none_iff.mp hlast n hn) (hpaths n hn)
    | some path =>
        have htext : path.text = "" := by
          by_contra hne
          exact hread ⟨path, hlast, hne⟩
        rw [← htext]

/-- A kind that is asked for at most once and not by an empty path. -/
structure AsksOnce (s : NamespaceList) (k : NamespaceKind) : Prop where
  atMostOne : (s.ofKind k).length ≤ 1
  path_ne_empty : ∀ n ∈ s.ofKind k, n.path ≠ some ⟨""⟩

theorem asksOnce_cons {n : Namespace} {ns : List Namespace} (hkind : s.ofKind k = n :: ns) :
    s.AsksOnce k ↔ ns = [] ∧ n.path ≠ some ⟨""⟩ := by
  constructor
  · rintro ⟨hlength, hpath⟩
    rw [hkind, List.length_cons, Nat.succ_le_succ_iff] at hlength
    have hmem : n ∈ s.ofKind k := hkind ▸ List.mem_cons_self
    exact ⟨List.eq_nil_of_length_eq_zero (Nat.le_zero.mp hlength), hpath n hmem⟩
  · rintro ⟨rfl, hpath⟩
    refine ⟨by simp [hkind], ?_⟩
    simpa [hkind] using hpath

/-- A kind that is asked for once is asked for as a new one or by a path. -/
theorem AsksOnce.cases (honce : s.AsksOnce k) : ¬ s.LosesKind k ∧ ¬ s.DoublesKind k := by
  unfold LosesKind DoublesKind lastPath
  cases hkind : s.ofKind k with
  | nil => simp
  | cons n ns =>
      obtain ⟨rfl, hpath⟩ := (asksOnce_cons hkind).mp honce
      cases hn : n.path with
      | none => simp [hn]
      | some path => simpa [hn] using hpath

end NamespaceList

/-! ## What the next stage makes of a kind -/

namespace Region

def Creates (r : Region) (k : NamespaceKind) : Prop :=
  k.IsCreatedBy r.creationFlags

/-- An empty path stands for nothing to join. -/
def Joins (r : Region) (k : NamespaceKind) : Prop :=
  r.pathToJoin k ≠ ""

section Carries

variable {r : Region} {p : Plan} {payload : ByteArray} {s : NamespaceList} {k : NamespaceKind}

theorem Carries.creates_iff (hcarries : r.Carries p payload)
    (hflags : p.creationFlags = s.creationFlags) :
    r.Creates k ↔ ∃ n ∈ s.ofKind k, n.path = none := by
  rw [Creates, hcarries.creationFlags, hflags, NamespaceList.isCreatedBy_creationFlags]

theorem Carries.joins_iff (hcarries : r.Carries p payload)
    (hpath : p.joinPaths k = s.lastPath k) :
    r.Joins k ↔ ∃ path, s.lastPath k = some path ∧ path.text ≠ "" := by
  rw [Joins, hcarries.pathToJoin, hpath]
  cases s.lastPath k <;> simp

end Carries

end Region

/-! ## What a launch hands on -/

namespace Launcher

variable {l : Launcher} {c : LaunchConfig} {h h' : Host} {r : ReadyLaunch} {files : AdminFiles}
  {maps : Option SubordinateMaps} {k : NamespaceKind}

/-- A kind that a request asks for once is still asked for once in the end: what is added
takes the place of what was there. -/
theorem Planned.asksOnce (hplan : Planned l c h r files maps) (honce : c.namespaces.AsksOnce k) :
    r.config.namespaces.AsksOnce k := by
  have hadded : ∀ {s : NamespaceList}, s.ofKind k = .create k :: (c.namespaces.ofKind k).tail →
      s.AsksOnce k := by
    intro s hkind
    refine (NamespaceList.asksOnce_cons hkind).mpr ⟨?_, by simp [Namespace.create]⟩
    have hlength := honce.atMostOne
    rw [← List.length_eq_zero_iff, List.length_tail]
    omega
  -- switched off, taken over by a fake superuser, the mount namespace, or left as it was
  have hkind := hplan.ofKind_eq (k := k)
  split at hkind
  · split at hkind
    · next huser =>
      obtain ⟨rfl, -⟩ := huser
      exact hadded hkind
    · by_cases hmount : k = .mount
      · subst hmount
        rw [NamespaceList.ofKind_add_create] at hkind
        exact hadded hkind
      · rw [NamespaceList.ofKind_add fun heq => hmount heq.symm] at hkind
        exact ⟨hkind ▸ honce.atMostOne, hkind ▸ honce.path_ne_empty⟩
  · exact ⟨by simp [hkind], by simp [hkind]⟩

/-- After a launch was prepared and its plan published, the next stage neither makes nor
joins a namespace of a kind that is not in the configuration.  Of a kind that is there it
does neither exactly if all its entries have paths and the last one is empty, and both
exactly if one entry has no path and the last path is not empty.  A kind that the request
asks for once, and not by an empty path, is either made or joined. -/
theorem namespace_created_or_joined {region region' : Region} {payload : ByteArray}
    {h₁ h₂ : Host} (hfresh : c.instanceJoin = none)
    (hrun : (l.prepare c).perform h = (.ok r, h'))
    (hpublish : (region.publish r.plan payload).perform h₁ = (.ok region', h₂))
    (k : NamespaceKind) :
    (r.config.namespaces.has k = false → ¬ region'.Creates k ∧ ¬ region'.Joins k) ∧
    (r.config.namespaces.has k = true →
      (¬ region'.Creates k ∧ ¬ region'.Joins k ↔ r.config.namespaces.LosesKind k) ∧
      (region'.Creates k ∧ region'.Joins k ↔ r.config.namespaces.DoublesKind k) ∧
      (c.namespaces.AsksOnce k → (region'.Creates k ↔ ¬ region'.Joins k))) := by
  obtain ⟨files, maps, hplan⟩ := planned_of_prepare hfresh hrun
  obtain ⟨hfits, hroom, -, hfilled⟩ := Region.publishing_ok.mp (Region.publish_ok.mp hpublish)
  have hcarries : region'.Carries r.plan payload := hfilled ▸ Region.carries_filled hfits hroom
  have hcreates := hcarries.creates_iff (k := k) hplan.creationFlags_eq
  have hjoins := hcarries.joins_iff (hplan.joinPaths_eq k)
  constructor
  · intro hhas
    have hnone := NamespaceList.has_eq_false_iff.mp hhas
    rw [hcreates, hjoins, NamespaceList.lastPath, hnone]
    simp
  · intro hhas
    rw [NamespaceList.has_iff_ofKind] at hhas
    have hneither : ¬ region'.Creates k ∧ ¬ region'.Joins k ↔
        r.config.namespaces.LosesKind k := by
      rw [hcreates, hjoins, NamespaceList.losesKind_iff hhas]
    have hboth : region'.Creates k ∧ region'.Joins k ↔ r.config.namespaces.DoublesKind k := by
      rw [hcreates, hjoins, NamespaceList.DoublesKind]
    refine ⟨hneither, hboth, ?_⟩
    intro honce
    obtain ⟨hkept, hsingle⟩ := (hplan.asksOnce honce).cases
    rw [← hneither] at hkept
    rw [← hboth] at hsingle
    constructor
    · intro hnew hjoined
      exact hsingle ⟨hnew, hjoined⟩
    · intro hnot
      by_contra hold
      exact hkept ⟨hold, hnot⟩

def imageHost : Host :=
  .plain ⟨1000, 1000, 1000, []⟩ [["etc"], ["etc", "stagehand"], ["image"]]
    [(["etc", "stagehand", "stagehand.yaml"], "")]

/-- A request for a process namespace by an empty path and for a new host name
namespace. -/
def emptyPath : String :=
  "\x7b\"image\":\"/image\",\"process\":\x7b\"args\":[\"sh\"]\x7d,\"namespaces\":[" ++
    "\x7b\"type\":\"pid\",\"path\":\"\"\x7d,\x7b\"type\":\"uts\"\x7d]\x7d"

/-- A launch is prepared, and its plan published in a region of zeros. -/
def prepareIntoZeros (l : Launcher) (c : LaunchConfig) : Action (ReadyLaunch × Region) := do
  let r ← l.prepare c
  let region ← (Region.zero 65536 ⟨false, 0⟩).publish r.plan .empty
  return (r, region)

theorem publish_emptyPath :
    ∃ c r h' region' h'', LaunchConfig.parse emptyPath = .ok c ∧ c.instanceJoin = none ∧
      ((onHost imageHost false).prepare c).perform imageHost = (.ok r, h') ∧
      ((Region.zero 65536 ⟨false, 0⟩).publish r.plan .empty).perform h' = (.ok region', h'') ∧
      c.namespaces.ofKind .uts = [.create .uts] ∧
      r.config.namespaces.has .pid = true ∧ r.config.namespaces.has .uts = true ∧
      region'.creationFlags = 0x4020000 ∧ region'.pathToJoin .pid = "" := by
  obtain ⟨c, hparse, hc⟩ : ∃ c, LaunchConfig.parse emptyPath = .ok c ∧
      (c.instanceJoin, c.namespaces.ofKind .uts,
        (((onHost imageHost false).prepareIntoZeros c).perform imageHost).1.toOption.map
          fun x => [x.1.config.namespaces.has .pid, x.1.config.namespaces.has .uts,
            x.2.creationFlags == 0x4020000, x.2.pathToJoin .pid == ""]) =
      (none, [.create .uts], some [true, true, true, true]) :=
    Error.exists_ok_of_map (by decide +kernel)
  simp only [Prod.mk.injEq] at hc
  obtain ⟨hfresh, huts, hready⟩ := hc
  obtain ⟨⟨r, region'⟩, h'', hsteps, hread⟩ := Action.exists_perform_ok hready
  obtain ⟨_, h', hrun, hsteps⟩ := Action.perform_bind_ok.mp hsteps
  obtain ⟨_, _, hpublish, hdone⟩ := Action.perform_bind_ok.mp hsteps
  obtain ⟨hpair, rfl⟩ := Action.perform_pure_ok.mp hdone
  cases hpair
  simp only [List.cons.injEq, beq_iff_eq, and_true] at hread
  exact ⟨c, r, h', region', _, hparse, hfresh, hrun, hpublish, huts, hread⟩

theorem namespace_created_or_joined_emptyPath :
    ∃ c r h' region' h'', c.instanceJoin = none ∧
      ((onHost imageHost false).prepare c).perform imageHost = (.ok r, h') ∧
      ((Region.zero 65536 ⟨false, 0⟩).publish r.plan .empty).perform h' = (.ok region', h'') ∧
      r.config.namespaces.LosesKind .pid ∧
      (region'.Creates .uts ↔ ¬ region'.Joins .uts) := by
  obtain ⟨c, r, h', region', h'', -, hfresh, hrun, hpublish, hnew, hpid, huts, hflags, hpath⟩ :=
    publish_emptyPath
  have hlost : ¬ region'.Creates .pid ∧ ¬ region'.Joins .pid := by
    constructor
    · rw [Region.Creates, hflags]
      decide
    · rw [Region.Joins, hpath]
      exact fun hne => hne rfl
  have honce : c.namespaces.AsksOnce .uts :=
    (NamespaceList.asksOnce_cons hnew).mpr ⟨rfl, by decide⟩
  exact ⟨c, r, h', region', h'', hfresh, hrun, hpublish,
    ((namespace_created_or_joined hfresh hrun hpublish .pid).2 hpid).1.mp hlost,
    ((namespace_created_or_joined hfresh hrun hpublish .uts).2 huts).2.2 honce⟩

/-- A process namespace that is asked for by an empty path is in the configuration that is
handed on, and the next stage neither makes nor joins one. -/
theorem emptyPath_namespace_lost :
    ∃ c r h' region' h'', LaunchConfig.parse emptyPath = .ok c ∧ c.instanceJoin = none ∧
      ((onHost imageHost false).prepare c).perform imageHost = (.ok r, h') ∧
      ((Region.zero 65536 ⟨false, 0⟩).publish r.plan .empty).perform h' = (.ok region', h'') ∧
      r.config.namespaces.has .pid = true ∧
      ¬ (region'.Creates .pid ↔ ¬ region'.Joins .pid) := by
  obtain ⟨c, r, h', region', h'', hparse, hfresh, hrun, hpublish, -, hpid, -, hflags, hpath⟩ :=
    publish_emptyPath
  refine ⟨c, r, h', region', h'', hparse, hfresh, hrun, hpublish, hpid, ?_⟩
  rw [Region.Creates, Region.Joins, hflags, hpath]
  decide

end Launcher
end ContainerLaunch
