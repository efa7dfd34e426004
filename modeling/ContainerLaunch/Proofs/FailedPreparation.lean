import ContainerLaunch.Proofs.Launch.Preparation
/-!
# What a failed preparation leaves

A preparation that fails leaves every file as it was, with one exception: a
launch that joins an instance enters the control group of the instance before its
FUSE mounts and its socket pair are made, and what fails after that does not take
it back.
-/

namespace ContainerLaunch.Launcher

variable {l : Launcher} {c : LaunchConfig} {h h' : Host} {e : Error} {place : Place}
  {inode : Inode}

/-! ## Launches that get as far as a control group -/

/-- A launch that joins an instance and gets as far as entering its control group,
with the file that this puts into the tree. -/
structure EntersGroup (l : Launcher) (c : LaunchConfig) (h : Host) (place : Place)
    (inode : Inode) : Prop where
  joins : c.instanceJoin.isSome = true
  has_args : c.process.args.isEmpty = false
  entered : ∃ files record original d h₁, l.loadPolicy c h = .ok files ∧
    ((opening l c h).takeOver l files).perform (opened l c h) = (.ok (record, original, d), h₁) ∧
    Draft.MembersFile record h₁ place inode ∧
    (Draft.enterCgroup record).perform h₁ =
      (.ok (), { h₁ with tree := h₁.tree.put place inode })

/-- The host with a file put into its tree, without its descriptors and what the user
was told. -/
def withFile (h : Host) (place : Place) (inode : Inode) : Host :=
  { h.lasting with tree := h.tree.put place inode }

theorem lasting_put (h : Host) (place : Place) (inode : Inode) :
    ({ h with tree := h.tree.put place inode } : Host).lasting = withFile h place inode :=
  rfl

theorem withFile_congr {h₁ : Host} (hlast : h₁.lasting = h.lasting) (place : Place)
    (inode : Inode) : withFile h₁ place inode = withFile h place inode := by
  unfold withFile
  rw [hlast, Host.tree_eq_of_lasting hlast]

/-! ## What fails after the container -/

theorem quiet_closing (l : Launcher) (policy : Policy) (d : Draft) :
    Action.Quiet (l.withFuse policy (l.settle d) >>= finish) :=
  Action.quiet_bind (quiet_withFuse _ _ _) quiet_finish

/-- A draft that keeps few descriptors is closed without an error unless it has FUSE
mounts. -/
theorem closing_error {policy : Policy} {d : Draft}
    (hfew : d.plan.keptDescriptors.length + 2 ≤ Plan.maxKept)
    (hrun : (l.withFuse policy (l.settle d) >>= finish).perform h = (.error e, h')) :
    d.config.fuseMounts ≠ [] ∧ LateError l e := by
  constructor
  · intro hnone
    have hfuse : (l.withFuse policy (l.settle d)).perform h =
        (.ok (mounting (l.settle d) []), h) := withFuse_nil hnone
    rw [Action.perform_bind, hfuse] at hrun
    obtain ⟨hfull, -⟩ := finish_error hrun
    have hkept : (mounting (l.settle d) []).plan.keptDescriptors = d.plan.keptDescriptors := rfl
    rw [hkept] at hfull
    omega
  · rcases Action.perform_bind_error.mp hrun with hfuse | ⟨d₁, h₁, -, hfinish⟩
    · exact withFuse_error hfuse
    · rw [(finish_error hfinish).2]
      exact .tooManyKept

/-! ## Launches that enter no group -/

theorem container_error {files : AdminFiles}
    (hrun : (l.container files c (opening l c h)).perform (opened l c h) = (.error e, h')) :
    h'.lasting = h.lasting := by
  cases hjoin : c.instanceJoin.isSome with
  | true =>
      rw [container_eq_join hjoin] at hrun
      exact (Draft.join_error hrun).trans (lasting_opened l c h)
  | false =>
      rw [container_eq_draftFresh hjoin] at hrun
      exact ((quiet_draftFresh _ _ _ _).lasting_eq hrun).trans (lasting_opened l c h)

theorem container_ok {files : AdminFiles} {d : Draft} (hfiles : l.loadPolicy c h = .ok files)
    (hargs : c.process.args.isEmpty = false)
    (hrun : (l.container files c (opening l c h)).perform (opened l c h) = (.ok d, h')) :
    h'.lasting = h.lasting ∨ ∃ place inode, EntersGroup l c h place inode := by
  cases hjoin : c.instanceJoin.isSome with
  | false =>
      rw [container_eq_draftFresh hjoin] at hrun
      exact Or.inl (((quiet_draftFresh _ _ _ _).lasting_eq hrun).trans (lasting_opened l c h))
  | true =>
      rw [container_eq_join hjoin] at hrun
      obtain ⟨record, original, d₁, h₁, htake, henter, -⟩ := Draft.join_ok.mp hrun
      rcases Draft.enterCgroup_ok henter with ⟨-, rfl⟩ | ⟨place, inode, hmembers, rfl⟩
      · exact Or.inl (((Draft.quiet_takeOver _ _ _).lasting_eq htake).trans (lasting_opened l c h))
      · exact Or.inr ⟨place, inode, hjoin, hargs, files, record, original, d₁, h₁, hfiles, htake,
          hmembers, henter⟩

/-- A failed preparation leaves nothing behind unless it has entered a group. -/
theorem lasting_or_entersGroup (hrun : (l.prepare c).perform h = (.error e, h')) :
    h'.lasting = h.lasting ∨ ∃ place inode, EntersGroup l c h place inode := by
  cases hfiles : l.loadPolicy c h with
  | error e₁ => exact Or.inl (lasting_of_loadPolicy_error hfiles hrun)
  | ok files =>
      obtain ⟨h₁, hsteps, hlast⟩ := prepareWith_of_prepare_error hfiles hrun
      rw [hlast]
      rw [perform_prepareWith] at hsteps
      cases hargs : c.process.args.isEmpty with
      | true =>
          rw [if_pos hargs] at hsteps
          cases hsteps
          exact Or.inl rfl
      | false =>
          rw [if_neg (by rw [hargs]; decide)] at hsteps
          rcases Action.perform_bind_error.mp hsteps with hcontainer | ⟨d, h₂, hcontainer, hclosing⟩
          · exact Or.inl (container_error hcontainer)
          · rw [(quiet_closing l files.policy d).lasting_eq hclosing]
            exact container_ok hfiles hargs hcontainer

/-- A failed preparation that has entered a group leaves its parent there, and has
failed at its FUSE mounts or for what it keeps open for them. -/
theorem EntersGroup.of_error (henters : EntersGroup l c h place inode)
    (hrun : (l.prepare c).perform h = (.error e, h')) :
    h'.lasting = withFile h place inode ∧ c.fuseMounts ≠ [] ∧ LateError l e := by
  obtain ⟨hjoin, hargs, files, record, original, d, h₁, hfiles, htake, -, henter⟩ := henters
  obtain ⟨h₂, hsteps, hlast⟩ := prepareWith_of_prepare_error hfiles hrun
  rw [perform_prepareWith, if_neg (by rw [hargs]; decide), container_eq_join hjoin,
    Action.perform_bind, Draft.join_ok.mpr ⟨record, original, d, h₁, htake, henter, rfl⟩] at hsteps
  have hclosing : (l.withFuse files.policy (l.settle
      (d.restorePrivileges l.facts.caller original)) >>= finish).perform
        { h₁ with tree := h₁.tree.put place inode } = (.error e, h₂) := hsteps
  obtain ⟨enforced, directory, h₃, seccomp, -, -, -, rfl⟩ := Draft.takeOver_ok htake
  constructor
  · rw [hlast, (quiet_closing l files.policy _).lasting_eq hclosing, lasting_put]
    exact withFile_congr ((Draft.quiet_takeOver _ _ _).lasting_eq htake) place inode
  · have hfew : (((opening l c h).takingOver l files enforced directory original seccomp
        h₁.users).restorePrivileges l.facts.caller original).plan.keptDescriptors.length + 2 ≤
          Plan.maxKept := by
      rw [Draft.restorePrivileges_eq, Draft.takingOver_keptDescriptors, opening_keptDescriptors]
      simp [Plan.maxKept]
    obtain ⟨hfuse, hlate⟩ := closing_error hfew hclosing
    rw [Draft.restorePrivileges_eq, Draft.takingOver_fuseMounts, opening_config] at hfuse
    exact ⟨hfuse, hlate⟩

/-! ## Every failed launch -/

/-- A host of the superuser with an instance in a control group and no FUSE device. -/
def groupHost : Host :=
  .plain ⟨0, 0, 0, []⟩
    [["etc"], ["etc", "stagehand"], ["proc"], ["proc", "42"], ["sys"], ["sys", "fs"],
      ["sys", "fs", "cgroup"], ["sys", "fs", "cgroup", "box"]]
    [(["etc", "stagehand", "stagehand.yaml"], ""),
      (["box.json"],
        "\x7b\"name\":\"box\",\"pid\":42,\"ppid\":41,\"cgroup\":true,\"config\":\x7b\x7d\x7d"),
      (["proc", "42", "cgroup"], "0::/box\n")]

/-- A request to join the instance with a FUSE mount. -/
def joinWithFuse : String :=
  "\x7b\"instanceJoin\":\"box\",\"instanceFile\":\"/box.json\"," ++
    "\"process\":\x7b\"args\":[\"sh\"]\x7d,\"fuseMounts\":[\x7b\"mountPoint\":\"/mnt\"\x7d]\x7d"

/-- The members of the group of the instance. -/
def groupMembers : Place := ["sys", "fs", "cgroup", "box", "cgroup.procs"]

/-- The file that tells the members of the group, with the parent in it. -/
def parentInGroup : Inode := ⟨.file (Text.octets "99"), 0, 0, false⟩

theorem prepare_joinWithFuse :
    ∃ c e h', LaunchConfig.parse joinWithFuse = .ok c ∧
      ((onHost groupHost false).prepare c).perform groupHost = (.error e, h') ∧
      h'.tree.find? groupMembers = some parentInGroup := by
  obtain ⟨c, hparse, hc⟩ : ∃ c, LaunchConfig.parse joinWithFuse = .ok c ∧
      ((((onHost groupHost false).prepare c).perform groupHost).1.isOk,
        (((onHost groupHost false).prepare c).perform groupHost).2.tree.find? groupMembers) =
          (false, some parentInGroup) :=
    Error.exists_ok_of_map (by decide +kernel)
  obtain ⟨e, h', hrun, hmembers⟩ := Action.exists_perform_error
    (f := fun h => h.tree.find? groupMembers) ⟨congrArg Prod.fst hc, congrArg Prod.snd hc⟩
  exact ⟨c, e, h', hparse, hrun, hmembers⟩

end ContainerLaunch.Launcher
