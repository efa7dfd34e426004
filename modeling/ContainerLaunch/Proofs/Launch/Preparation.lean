import ContainerLaunch.Launch.Prepare
import ContainerLaunch.Proofs.Launch.Fresh
import ContainerLaunch.Proofs.Launch.Images
import ContainerLaunch.Proofs.Launch.Joined
import ContainerLaunch.Proofs.Launch.Pinned
/-!
# Preparations, step by step

A preparation that succeeds is opened into the runs of its steps; what a failed
one leaves is what the step that failed had left.
-/

namespace ContainerLaunch

/-! ## Closing on errors -/

namespace Action

variable {α : Type} {h h' : Host}

/-- The host with only those descriptors whose numbers were open before. -/
def closingNew (before h : Host) : Host :=
  { h with descriptors := h.descriptors.filter fun d =>
      before.descriptors.any fun b => b.number == d.number }

theorem perform_closingOnError (a : Action α) (h : Host) :
    (closingOnError a).perform h =
      match a.perform h with
      | (.ok x, h') => (.ok x, h')
      | (.error e, h') => (.error e, closingNew h h') := by
  simp only [closingOnError, perform_observe_bind, perform_tryCatch]
  rfl

theorem perform_closingOnError_ok {a : Action α} {x : α} :
    (closingOnError a).perform h = (.ok x, h') ↔ a.perform h = (.ok x, h') := by
  rw [perform_closingOnError]
  split
  · next y h₁ hrun => rw [hrun]
  · next e h₁ hrun => simp [hrun]

/-- Nothing is closed on a host on which nothing was opened. -/
theorem closingNew_self (h : Host) : closingNew h h = h := by
  have hall : h.descriptors.filter (fun d => h.descriptors.any fun b => b.number == d.number) =
      h.descriptors := by
    apply List.filter_eq_self.mpr
    intro d hd
    exact List.any_eq_true.mpr ⟨d, hd, beq_self_eq_true _⟩
  simp only [closingNew, hall]

/-- Closing descriptors is nothing that lasts. -/
theorem lasting_of_closingOnError {a : Action α} {r : Except Error α}
    (hrun : (closingOnError a).perform h = (r, h')) :
    ∃ h₁, a.perform h = (r, h₁) ∧ h'.lasting = h₁.lasting := by
  rw [perform_closingOnError] at hrun
  split at hrun
  · next x h₁ ha =>
    obtain ⟨rfl, rfl⟩ := Prod.mk.injEq .. ▸ hrun
    exact ⟨h₁, ha, rfl⟩
  · next e h₁ ha =>
    obtain ⟨rfl, rfl⟩ := Prod.mk.injEq .. ▸ hrun
    exact ⟨h₁, ha, rfl⟩

end Action

/-! ## FUSE mounts -/

namespace FuseMount

variable {device : Path} {mounts : List FuseMount} {enabled isSuid fakeroot : Bool} {h h' : Host}

theorem quiet_openEach (device : Path) (mounts : List FuseMount) :
    Action.Quiet (openEach device mounts) := by
  induction mounts with
  | nil => exact Action.quiet_pure _
  | cons mount rest ih =>
      refine Action.quiet_bind (Action.quiet_openFile _ _) fun file => ?_
      exact Action.quiet_bind ih fun more => Action.quiet_pure _

theorem quiet_openAll (device : Path) (mounts : List FuseMount) (enabled isSuid fakeroot : Bool) :
    Action.Quiet (openAll device mounts enabled isSuid fakeroot) := by
  refine Action.quiet_ite (Action.quiet_pure _) (Action.quiet_refuse ?_)
  exact Action.quiet_bind (quiet_openEach _ _) fun _ => Action.quiet_pure _

theorem openEach_error {e : Error}
    (hrun : (openEach device mounts).perform h = (.error e, h')) :
    mounts ≠ [] ∧ ∃ cause, e = .atPath device cause := by
  induction mounts generalizing h with
  | nil => simp [openEach] at hrun
  | cons mount rest ih =>
      refine ⟨List.cons_ne_nil _ _, ?_⟩
      rcases Action.perform_bind_error.mp hrun with hfile | ⟨file, h₁, -, hmore⟩
      · obtain ⟨⟨cause, -, rfl⟩, -⟩ := Action.perform_openFile_error.mp hfile
        exact ⟨cause, rfl⟩
      · rcases Action.perform_bind_error.mp hmore with hrest | ⟨more, h₂, -, hdone⟩
        · exact (ih hrest).2
        · simp at hdone

/-- A mount with a handle of its own. -/
def withHandle (m : FuseMount) (f : OpenFile) : FuseMount :=
  { m with fd := some (recorded f.number) }

/-- One handle of the device for each of several mounts, recorded with them in order. -/
structure HandlesOf (device : Path) (h : Host) (mounts done : List FuseMount)
    (files : List OpenFile) : Prop where
  mounts_eq : done = List.zipWith withHandle mounts files
  length_eq : files.length = mounts.length
  opened : ∀ f ∈ files, ∃ h₁ : Host, h₁.lasting = h.lasting ∧
    h₁.opening .readWrite device = .ok (f.place, f.inode)

theorem openEach_ok {handles : List (FuseMount × OpenFile)}
    (hrun : (openEach device mounts).perform h = (.ok handles, h')) :
    HandlesOf device h mounts (handles.map Prod.fst) (handles.map Prod.snd) ∧
      h.Opened ((handles.map Prod.snd).map OpenFile.tableEntry) h' := by
  induction mounts generalizing handles h h' with
  | nil =>
      obtain ⟨rfl, rfl⟩ := Action.perform_pure_ok.mp hrun
      exact ⟨⟨rfl, rfl, fun _ hf => absurd hf List.not_mem_nil⟩, .of_same rfl⟩
  | cons mount rest ih =>
      obtain ⟨file, h₁, hopen, hrun⟩ := Action.perform_bind_ok.mp hrun
      obtain ⟨more, h₂, hmore, hdone⟩ := Action.perform_bind_ok.mp hrun
      obtain ⟨rfl, rfl⟩ := Action.perform_pure_ok.mp hdone
      obtain ⟨⟨hmounts, hlength, hopened⟩, hrest⟩ := ih hmore
      refine ⟨⟨?_, ?_, ?_⟩, (Action.openFile_opened hopen).trans hrest⟩
      · exact congrArg _ hmounts
      · exact congrArg Nat.succ hlength
      · intro f hf
        rcases List.mem_cons.mp hf with rfl | hf
        · exact ⟨h, rfl, (Action.perform_openFile_ok.mp hopen).1⟩
        · obtain ⟨h₀, hlast, hfound⟩ := hopened f hf
          exact ⟨h₀, hlast.trans ((Action.quiet_openFile _ _).lasting_eq hopen), hfound⟩

theorem openAll_ok {handles : FuseDescriptors}
    (hrun : (openAll device mounts enabled isSuid fakeroot).perform h = (.ok handles, h')) :
    HandlesOf device h mounts handles.mounts handles.files ∧
      h.Opened (handles.files.map OpenFile.tableEntry) h' := by
  unfold openAll at hrun
  split at hrun
  · next hnone =>
    obtain ⟨rfl, rfl⟩ := Action.perform_pure_ok.mp hrun
    rw [List.isEmpty_iff.mp hnone]
    exact ⟨⟨rfl, rfl, fun _ hf => absurd hf List.not_mem_nil⟩, .of_same rfl⟩
  · obtain ⟨-, hrun⟩ := Action.perform_refuse_ok.mp hrun
    obtain ⟨opened, h₁, hopen, hdone⟩ := Action.perform_bind_ok.mp hrun
    obtain ⟨rfl, rfl⟩ := Action.perform_pure_ok.mp hdone
    exact openEach_ok hopen

theorem openAll_nil :
    (openAll device [] enabled isSuid fakeroot).perform h = (.ok ⟨[], [], false⟩, h) :=
  rfl

/-- Where FUSE mounts fail there are some, and either the policy has switched them off
or the device cannot be opened. -/
theorem openAll_error {e : Error}
    (hrun : (openAll device mounts enabled isSuid fakeroot).perform h = (.error e, h')) :
    mounts ≠ [] ∧
      (e = .disabled "fusemount" "enable-fusemount: no" ∨ ∃ cause, e = .atPath device cause) := by
  cases mounts with
  | nil => simp [openAll_nil] at hrun
  | cons mount rest =>
      refine ⟨List.cons_ne_nil _ _, ?_⟩
      have hopens : ∀ {h : Host}, (do
          let opened ← openEach device (mount :: rest)
          return ({
            mounts := opened.map Prod.fst
            files := opened.map Prod.snd
            send := (!isSuid || fakeroot) && (mount :: rest).any fun m => !m.fromContainer } :
              FuseDescriptors)).perform h = (.error e, h') → ∃ cause, e = .atPath device cause := by
        intro h hopen
        rcases Action.perform_bind_error.mp hopen with heach | ⟨_, _, -, hdone⟩
        · exact (openEach_error heach).2
        · simp at hdone
      unfold openAll at hrun
      cases enabled with
      | true => exact Or.inr (hopens hrun)
      | false =>
          simp only [List.isEmpty_cons, Bool.false_eq_true, if_false, Bool.not_false, if_true]
            at hrun
          rcases Action.perform_bind_error.mp hrun with hfail | ⟨_, _, hnever, -⟩
          · exact Or.inl (Action.perform_fail_error.mp hfail).1.symm
          · simp at hnever

end FuseMount

namespace Launcher

variable {l : Launcher} {policy : Policy} {files : AdminFiles} {c : LaunchConfig} {d d' : Draft}
  {r : ReadyLaunch} {h h' : Host} {e : Error}

/-! ## The closing steps -/

/-- A draft with other FUSE mounts. -/
def mounting (d : Draft) (mounts : List FuseMount) : Draft :=
  { d with config := { d.config with fuseMounts := mounts } }

theorem quiet_withFuse (l : Launcher) (policy : Policy) (d : Draft) :
    Action.Quiet (l.withFuse policy d) :=
  Action.quiet_bind (FuseMount.quiet_openAll _ _ _ _ _) fun _ => Action.quiet_ofExcept _

theorem withFuse_ok (hrun : (l.withFuse policy d).perform h = (.ok d', h')) :
    ∃ handles, (FuseMount.openAll l.fuseDevice d.config.fuseMounts policy.enableFusemount
        l.facts.isSuid d.config.fakeroot).perform h = (.ok handles, h') ∧
      (mounting d handles.mounts).holding handles.files = d' := by
  obtain ⟨handles, h₁, hopen, hkeep⟩ := Action.perform_bind_ok.mp hrun
  obtain ⟨hkept, rfl⟩ := Action.perform_ofExcept_ok.mp hkeep
  exact ⟨handles, hopen, (Draft.keepFiles_ok.mp hkept).2⟩

/-- Without FUSE mounts nothing is opened for them. -/
theorem withFuse_nil (hnone : d.config.fuseMounts = []) :
    (l.withFuse policy d).perform h = (.ok (mounting d []), h) := by
  unfold withFuse
  rw [hnone, Action.perform_bind, FuseMount.openAll_nil]
  rfl

/-- The errors that a preparation may end with when everything else is done: those
of FUSE mounts and of too many descriptors. -/
inductive LateError (l : Launcher) : Error → Prop
  | fuseDisabled : LateError l (.disabled "fusemount" "enable-fusemount: no")
  | fuseDevice (cause : IoError) : LateError l (.atPath l.fuseDevice cause)
  | tooManyKept : LateError l Plan.tooManyKept

theorem withFuse_error (hrun : (l.withFuse policy d).perform h = (.error e, h')) :
    LateError l e := by
  rcases Action.perform_bind_error.mp hrun with hopen | ⟨handles, h₁, -, hkeep⟩
  · rcases (FuseMount.openAll_error hopen).2 with rfl | ⟨cause, rfl⟩
    · exact .fuseDisabled
    · exact .fuseDevice cause
  · obtain ⟨hkept, -⟩ := Action.perform_ofExcept_error.mp hkeep
    rw [Draft.keepFiles_error hkept]
    exact .tooManyKept

theorem quiet_finish (d : Draft) : Action.Quiet (finish d) :=
  Action.quiet_bind Action.quiet_socketPair fun _ =>
    Action.quiet_bind (Action.quiet_ofExcept _) fun _ =>
      Action.quiet_bind (Action.quiet_ofExcept _) fun _ => Action.quiet_pure _

/-- What is handed on with a socket pair. -/
def readyWith (d : Draft) (ends : Nat × Nat) : ReadyLaunch where
  plan := { d.plan with
    keptDescriptors := d.plan.keptDescriptors ++
      [FuseMount.recorded ends.1, FuseMount.recorded ends.2]
    nvCcliCaps := d.plan.nvCcliCaps || d.config.nvCcli }
  config := { d.config with
    unixSocketPair := some (FuseMount.recorded ends.1, FuseMount.recorded ends.2) }
  images := d.images
  held := d.held
  socketPair := ends

theorem finish_ok (hrun : (finish d).perform h = (.ok r, h')) :
    d.plan.keptDescriptors.length + 2 ≤ Plan.maxKept ∧
      ∃ ends, Action.socketPair.perform h = (.ok ends, h') ∧ readyWith d ends = r := by
  obtain ⟨ends, h₁, hpair, hrun⟩ := Action.perform_bind_ok.mp hrun
  simp only [Action.perform_ofExcept_bind_ok, Action.perform_pure_ok] at hrun
  obtain ⟨d₁, hfirst, d₂, hsecond, hready, rfl⟩ := hrun
  obtain ⟨-, rfl⟩ := Draft.keep_ok.mp hfirst
  obtain ⟨hroom, rfl⟩ := Draft.keep_ok.mp hsecond
  simp only [Draft.keeping, List.length_append, List.length_singleton] at hroom
  refine ⟨hroom, ends, hpair, hready ▸ ?_⟩
  simp [readyWith, Draft.keeping]

/-- A draft that is whole but for its socket pair can only keep too many
descriptors. -/
theorem finish_error (hrun : (finish d).perform h = (.error e, h')) :
    Plan.maxKept < d.plan.keptDescriptors.length + 2 ∧ e = Plan.tooManyKept := by
  rcases Action.perform_bind_error.mp hrun with hpair | ⟨ends, h₁, -, hkeep⟩
  · simp [Action.perform_socketPair] at hpair
  · rcases Action.perform_bind_error.mp hkeep with hfirst | ⟨d₁, h₂, hkept, hrest⟩
    · obtain ⟨hfull, rfl⟩ := Draft.keep_error.mp (Action.perform_ofExcept_error.mp hfirst).1
      exact ⟨by omega, rfl⟩
    · obtain ⟨-, rfl⟩ := Draft.keep_ok.mp (Action.perform_ofExcept_ok.mp hkept).1
      rcases Action.perform_bind_error.mp hrest with hsecond | ⟨d₂, h₃, -, hready⟩
      · obtain ⟨hfull, rfl⟩ := Draft.keep_error.mp (Action.perform_ofExcept_error.mp hsecond).1
        simp only [Draft.keeping, List.length_append, List.length_singleton] at hfull
        exact ⟨by omega, rfl⟩
      · simp at hready

/-! ## The draft that a preparation starts from -/

/-- The draft of a request, in a directory and for whom it is. -/
def opening (l : Launcher) (c : LaunchConfig) (h : Host) : Draft :=
  ((Draft.start c).inDirectory (Draft.directoryOf c h)).forTarget l.facts.caller

/-- The host after a draft was opened, in which the user was told of what is missing. -/
def opened (l : Launcher) (c : LaunchConfig) (h : Host) : Host :=
  h.tellAll (Draft.directoryNotices c h ++ Draft.targetNotices c l.facts.caller)

theorem lasting_opened (l : Launcher) (c : LaunchConfig) (h : Host) :
    (opened l c h).lasting = h.lasting :=
  rfl

/-- Opening a draft settles the directory and whether the process may gain
privileges, and leaves the rest of the request as it is. -/
theorem opening_config (l : Launcher) (c : LaunchConfig) (h : Host) :
    (opening l c h).config = { c with
      cwd := some (Draft.directoryOf c h)
      process := { c.process with
        noNewPrivileges := (opening l c h).config.process.noNewPrivileges } } := by
  unfold opening Draft.forTarget
  split <;> rfl

theorem opening_noNewPrivileges (l : Launcher) (c : LaunchConfig) (h : Host) :
    (opening l c h).config.process.noNewPrivileges =
      (c.process.noNewPrivileges || Draft.asksForTarget c l.facts.caller) := by
  unfold opening Draft.forTarget
  split
  · next hasks =>
    have htarget : Draft.asksForTarget c l.facts.caller = true := hasks
    simp [htarget]
  · next hasks =>
    have htarget : Draft.asksForTarget c l.facts.caller = false :=
      Bool.eq_false_iff.mpr hasks
    simp [htarget, Draft.inDirectory, Draft.start]

theorem opening_images (l : Launcher) (c : LaunchConfig) (h : Host) :
    (opening l c h).images = [] := by
  unfold opening Draft.forTarget
  split <;> rfl

/-- Of the plan only the target is settled when a draft is opened. -/
theorem opening_plan (l : Launcher) (c : LaunchConfig) (h : Host) :
    (opening l c h).plan =
      if Draft.asksForTarget c l.facts.caller then
        ({ Plan.empty with targetUid := c.targetUid } : Plan).withTargetGids c.targetGids
      else .empty := by
  unfold opening Draft.forTarget
  split
  · next hasks =>
    have htarget : Draft.asksForTarget c l.facts.caller = true := hasks
    rw [if_pos htarget]
    rfl
  · next hasks =>
    have htarget : ¬ Draft.asksForTarget c l.facts.caller = true := hasks
    rw [if_neg htarget]
    rfl

theorem opening_joinPaths (l : Launcher) (c : LaunchConfig) (h : Host) (k : NamespaceKind) :
    (opening l c h).plan.joinPaths k = none := by
  unfold opening Draft.forTarget
  split <;> rfl

theorem opening_keptDescriptors (l : Launcher) (c : LaunchConfig) (h : Host) :
    (opening l c h).plan.keptDescriptors = [] := by
  unfold opening Draft.forTarget
  split <;> rfl

/-! ## The container -/

theorem quiet_draftFresh (l : Launcher) (files : AdminFiles) (targetIds : Bool) (d : Draft) :
    Action.Quiet (l.draftFresh files targetIds d) :=
  Action.quiet_bind (Draft.quiet_withUserInfo _ _ _) fun _ =>
    Action.quiet_bind (Draft.quiet_fresh _ _ _ _) fun _ =>
      Action.quiet_bind (Draft.quiet_withImages _ _ _) fun _ => Draft.quiet_withAutofs _ _ _

/-- The draft of a new container is made in three runs: without its images, with
them, and with what lies below autofs mounts. -/
theorem draftFresh_ok {targetIds : Bool}
    (hrun : (l.draftFresh files targetIds d).perform h = (.ok d', h')) :
    ∃ user d₁ h₁ d₂ h₂ pinned,
      ((d.withUser user).fresh l files targetIds).perform h = (.ok d₁, h₁) ∧
        (d₁.withImages l files.policy).perform h₁ = (.ok d₂, h₂) ∧
        h₂.Opened (pinned.map OpenFile.tableEntry) h' ∧ d₂.holding pinned = d' := by
  obtain ⟨d₀, h₀, huser, hrun⟩ := Action.perform_bind_ok.mp hrun
  rw [Draft.perform_withUserInfo] at huser
  cases huser
  obtain ⟨d₁, h₁, hfresh, hrun⟩ := Action.perform_bind_ok.mp hrun
  obtain ⟨d₂, h₂, himages, hautofs⟩ := Action.perform_bind_ok.mp hrun
  obtain ⟨pinned, hopened, hpinned⟩ := Draft.withAutofs_ok hautofs
  exact ⟨_, d₁, h₁, d₂, h₂, pinned, hfresh, himages, hopened, hpinned⟩

/-- The draft of a launch, be it that of a new container or of a joined instance. -/
def container (l : Launcher) (files : AdminFiles) (c : LaunchConfig) (d : Draft) :
    Action Draft :=
  if d.config.instanceJoin.isSome then d.join l files
  else l.draftFresh files (Draft.asksForTarget c l.facts.caller) d

theorem container_eq_join (hjoin : c.instanceJoin.isSome = true) :
    l.container files c (opening l c h) = (opening l c h).join l files := by
  have hsome : (opening l c h).config.instanceJoin.isSome = true := by
    rw [opening_config]
    exact hjoin
  rw [container, if_pos hsome]

theorem container_eq_draftFresh (hfresh : c.instanceJoin.isSome = false) :
    l.container files c (opening l c h) =
      l.draftFresh files (Draft.asksForTarget c l.facts.caller) (opening l c h) := by
  have hnone : ¬ (opening l c h).config.instanceJoin.isSome = true := by
    rw [opening_config]
    simp [hfresh]
  rw [container, if_neg hnone]

/-! ## The whole preparation -/

/-- What is handed on for a draft, with the handles of its FUSE mounts and a socket
pair. -/
def closed (l : Launcher) (d : Draft) (handles : FuseDescriptors) (ends : Nat × Nat) :
    ReadyLaunch :=
  readyWith ((mounting (l.settle d) handles.mounts).holding handles.files) ends

section Closed

variable {handles : FuseDescriptors} {ends : Nat × Nat}

/-- Closing a draft settles what its configuration says and keeps more descriptors, and
leaves the rest of the plan as it is. -/
theorem closed_plan :
    (closed l d handles ends).plan = { d.plan with
      noNewPrivs := d.config.process.noNewPrivileges
      capabilities := d.config.process.capabilities.words
      keptDescriptors := (closed l d handles ends).plan.keptDescriptors
      masterPropagateMount := true
      nvCcliCaps := (closed l d handles ends).plan.nvCcliCaps } :=
  rfl

@[simp] theorem closed_capabilities :
    (closed l d handles ends).plan.capabilities = d.config.process.capabilities.words :=
  rfl

@[simp] theorem closed_noNewPrivs :
    (closed l d handles ends).plan.noNewPrivs = d.config.process.noNewPrivileges :=
  rfl

@[simp] theorem closed_imageList :
    (closed l d handles ends).config.imageList = d.config.imageList :=
  rfl

theorem closed_overlaySpecs :
    Draft.overlaySpecs (closed l d handles ends).config = Draft.overlaySpecs d.config :=
  Draft.overlaySpecs_congr rfl rfl

@[simp] theorem closed_held : (closed l d handles ends).held = d.held ++ handles.files :=
  rfl

@[simp] theorem closed_images : (closed l d handles ends).images = d.images :=
  rfl

end Closed

/-- A preparation opens a draft, which only tells the user something, and then
makes the container, its FUSE mounts and the socket pair. -/
theorem perform_prepareWith (l : Launcher) (files : AdminFiles) (c : LaunchConfig) (h : Host) :
    (l.prepareWith files c).perform h =
      if c.process.args.isEmpty then
        (.error (.invalid "container process arguments not found"),
          h.tellAll (Draft.directoryNotices c h))
      else
        (do
          let d ← l.container files c (opening l c h)
          let d ← l.withFuse files.policy (l.settle d)
          finish d).perform (opened l c h) := by
  have hdirectory := Draft.perform_withDirectory (Draft.start c) h
  have htarget := Draft.perform_withTarget
    ((Draft.start c).inDirectory (Draft.directoryOf c h)) l.facts.caller
    (h.tellAll (Draft.directoryNotices c h))
  rw [Host.tellAll_tellAll] at htarget
  unfold prepareWith
  rw [Action.perform_bind, hdirectory]
  by_cases hargs : c.process.args.isEmpty = true
  · rw [if_pos hargs]
    have hstart : ((Draft.start c).inDirectory
        (Draft.directoryOf c h)).config.process.args.isEmpty = true := hargs
    simp only [Draft.start] at hstart ⊢
    simp only [hstart, if_true, Action.perform_bind, Action.perform_fail]
  · rw [if_neg hargs]
    have hstart : ¬ ((Draft.start c).inDirectory
        (Draft.directoryOf c h)).config.process.args.isEmpty = true := hargs
    simp only [Draft.start] at hstart htarget ⊢
    simp only [hstart, if_false, Bool.false_eq_true, Action.perform_bind, htarget, container,
      opening, Draft.start]
    split
    · next hjoin =>
      simp only [hjoin, if_true, Action.perform_bind]
      rfl
    · next hjoin =>
      simp only [hjoin, if_false, Bool.false_eq_true, Action.perform_bind]
      rfl

/-- After the container only the handles of FUSE mounts and a socket pair are opened. -/
theorem prepareWith_ok (hrun : (l.prepareWith files c).perform h = (.ok r, h')) :
    c.process.args ≠ [] ∧ ∃ d h₁ handles h₂ ends,
      (l.container files c (opening l c h)).perform (opened l c h) = (.ok d, h₁) ∧
        (FuseMount.openAll l.fuseDevice d.config.fuseMounts files.policy.enableFusemount
          l.facts.isSuid d.config.fakeroot).perform h₁ = (.ok handles, h₂) ∧
        d.plan.keptDescriptors.length + handles.files.length + 2 ≤ Plan.maxKept ∧
        Action.socketPair.perform h₂ = (.ok ends, h') ∧ closed l d handles ends = r := by
  have hsteps := perform_prepareWith l files c h
  rw [hrun] at hsteps
  by_cases hargs : c.process.args.isEmpty = true
  · rw [if_pos hargs] at hsteps
    cases hsteps
  · rw [if_neg hargs] at hsteps
    obtain ⟨d, h₁, hcontainer, hclosing⟩ := Action.perform_bind_ok.mp hsteps.symm
    obtain ⟨d₁, h₂, hfuse, hfinish⟩ := Action.perform_bind_ok.mp hclosing
    obtain ⟨handles, hopen, rfl⟩ := withFuse_ok hfuse
    obtain ⟨hroom, ends, hpair, rfl⟩ := finish_ok hfinish
    refine ⟨by simpa using hargs, d, h₁, handles, h₂, ends, hcontainer, hopen, ?_, hpair, rfl⟩
    simpa [Draft.holding, Draft.keeping, mounting, settle] using hroom

/-- A preparation succeeds exactly if the administrator's files can be had and all
steps after them succeed. -/
theorem prepare_ok :
    (l.prepare c).perform h = (.ok r, h') ↔
      ∃ files, l.loadPolicy c h = .ok files ∧
        (l.prepareWith files c).perform h = (.ok r, h') := by
  simp only [prepare, Action.perform_closingOnError_ok, Action.perform_observe_bind,
    Action.perform_ofExcept_bind_ok, id]

/-- Where the administrator's files cannot be had, that error is all there is. -/
theorem perform_prepare_of_loadPolicy_error {e : Error} (hfiles : l.loadPolicy c h = .error e) :
    (l.prepare c).perform h = (.error e, h) := by
  have hsteps : (Action.observe id >>= fun h => Action.ofExcept (l.loadPolicy c h) >>=
      fun files => l.prepareWith files c).perform h = (.error e, h) := by
    rw [Action.perform_observe_bind, Action.perform_bind, Action.perform_ofExcept]
    simp only [id, hfiles]
  unfold prepare
  rw [Action.perform_closingOnError, hsteps]
  simp only [Action.closingNew_self]

/-- What becomes of a launch for which the administrator's files can be had is what becomes
of the steps after them. -/
theorem result_of_loadPolicy_ok (hfiles : l.loadPolicy c h = .ok files) :
    ((l.prepare c).perform h).1 = ((l.prepareWith files c).perform h).1 := by
  have hsteps : (Action.observe id >>= fun h => Action.ofExcept (l.loadPolicy c h) >>=
      fun files => l.prepareWith files c).perform h = (l.prepareWith files c).perform h := by
    rw [Action.perform_observe_bind, Action.perform_bind, Action.perform_ofExcept]
    simp only [id, hfiles]
  unfold prepare
  rw [Action.perform_closingOnError, hsteps]
  split
  · next x h₁ hrun => rw [hrun]
  · next e h₁ hrun => rw [hrun]

theorem lasting_of_loadPolicy_error {e₁ : Error} (hfiles : l.loadPolicy c h = .error e₁)
    (hrun : (l.prepare c).perform h = (.error e, h')) : h'.lasting = h.lasting := by
  have hleft := perform_prepare_of_loadPolicy_error hfiles
  rw [hrun] at hleft
  exact congrArg Host.lasting (Prod.mk.inj hleft).2

/-- Where the administrator's files can be had, a preparation that fails has failed in
one of the steps after them, and leaves what that step had left. -/
theorem prepareWith_of_prepare_error (hfiles : l.loadPolicy c h = .ok files)
    (hrun : (l.prepare c).perform h = (.error e, h')) :
    ∃ h₁, (l.prepareWith files c).perform h = (.error e, h₁) ∧ h'.lasting = h₁.lasting := by
  unfold prepare at hrun
  obtain ⟨h₁, hsteps, hlast⟩ := Action.lasting_of_closingOnError hrun
  simp only [Action.perform_observe_bind, id, hfiles] at hsteps
  rw [Action.perform_bind, Action.perform_ofExcept] at hsteps
  exact ⟨h₁, hsteps, hlast⟩

/-- A new container that is ready comes from a draft that was made with its images,
to which only what lies below autofs mounts and the closing steps have added. -/
theorem prepare_fresh_ok (hfresh : c.instanceJoin = none)
    (hrun : (l.prepare c).perform h = (.ok r, h')) :
    ∃ files user d₁ h₁ d₂ h₂ pinned handles ends,
      l.loadPolicy c h = .ok files ∧
        (((opening l c h).withUser user).fresh l files
          (Draft.asksForTarget c l.facts.caller)).perform (opened l c h) = (.ok d₁, h₁) ∧
        (d₁.withImages l files.policy).perform h₁ = (.ok d₂, h₂) ∧
        closed l (d₂.holding pinned) handles ends = r := by
  obtain ⟨files, hfiles, hsteps⟩ := prepare_ok.mp hrun
  obtain ⟨-, d, h₁, handles, -, ends, hcontainer, -, -, -, hr⟩ := prepareWith_ok hsteps
  rw [container_eq_draftFresh (by rw [hfresh]; rfl)] at hcontainer
  obtain ⟨user, d₁, h₂, d₂, h₃, pinned, hmade, himages, -, rfl⟩ := draftFresh_ok hcontainer
  exact ⟨files, user, d₁, h₂, d₂, h₃, pinned, handles, ends, hfiles, hmade, himages, hr⟩

/-- The record is where the request says, also once the launch has been opened. -/
theorem loadRecord_opening :
    InstanceRecord.load (opened l c h)
        (Draft.recordPath (opened l c h) l.facts.caller (opening l c h).config) =
      InstanceRecord.load h (Draft.recordPath h l.facts.caller c) := by
  rw [opening_config]
  rfl

/-- A joined instance that is ready comes from what was taken over from the
instance, without privileges that the caller may not have. -/
theorem prepare_join_ok (hjoin : c.instanceJoin.isSome = true)
    (hrun : (l.prepare c).perform h = (.ok r, h')) :
    ∃ files record original d₁ h₁ handles ends,
      l.loadPolicy c h = .ok files ∧
        ((opening l c h).takeOver l files).perform (opened l c h) =
          (.ok (record, original, d₁), h₁) ∧
        closed l (d₁.restorePrivileges l.facts.caller original) handles ends = r := by
  obtain ⟨files, hfiles, hsteps⟩ := prepare_ok.mp hrun
  obtain ⟨-, d, h₁, handles, -, ends, hcontainer, -, -, -, hr⟩ := prepareWith_ok hsteps
  rw [container_eq_join hjoin] at hcontainer
  obtain ⟨record, original, d₁, h₂, htake, -, rfl⟩ := Draft.join_ok.mp hcontainer
  exact ⟨files, record, original, d₁, h₂, handles, ends, hfiles, htake, hr⟩

end Launcher

/-! ## Plain hosts -/

/-- A host with given directories and text files of the superuser and nothing else out
of the ordinary, and on it a process in the root directory. -/
def Host.plain (credentials : Credentials) (directories : List Place)
    (texts : List (Place × String)) : Host where
  tree := ⟨(directories.map fun p => (p, .rootDirectory)) ++
    texts.map fun t => (t.1, ⟨.file (Text.octets t.2), 0, 0, false⟩)⟩
  restrictions := ⟨[], [], []⟩
  mounts := []
  users := ⟨[], []⟩
  kernel := "6.1.0"
  name := "host"
  process := ⟨credentials, 100, 99, [], some [], none⟩
  descriptors := []
  runs := []
  journal := []

/-- The usual launcher on a host. -/
def Launcher.onHost (h : Host) (isSuid : Bool) : Launcher :=
  .usual .default (.ofHost h isSuid) none

end ContainerLaunch
