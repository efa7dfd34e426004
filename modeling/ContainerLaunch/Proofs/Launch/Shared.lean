import ContainerLaunch.Launch.Draft
import ContainerLaunch.Proofs.Actions
/-!
# The steps that all launches share

What each shared step of a preparation makes of a draft, as a function of the
draft and of what the step found.  Steps that cannot fail are described by an
equation of their runs, the others by what a successful run says.  All of them
are quiet.
-/

namespace ContainerLaunch.Draft

variable {d d' : Draft} {h h' : Host}

/-! ## Descriptors -/

/-- A draft whose plan keeps more descriptors. -/
def keeping (d : Draft) (fds : List Int32) : Draft :=
  { d with plan := { d.plan with keptDescriptors := d.plan.keptDescriptors ++ fds } }

/-- A draft that keeps more files open. -/
def holding (d : Draft) (fs : List OpenFile) : Draft :=
  { d.keeping (fs.map descriptor) with held := d.held ++ fs }

theorem keep_ok {fd : Int32} :
    d.keep fd = .ok d' ↔
      d.plan.keptDescriptors.length < Plan.maxKept ∧ d.keeping [fd] = d' := by
  have hkeep : d.keep fd = d.plan.keep fd >>= fun plan => .ok { d with plan } := rfl
  rw [hkeep, Error.bind_eq_ok]
  unfold Plan.keep
  split
  · next hfull => simp [Nat.not_lt.mpr hfull]
  · next hroom =>
    rw [and_iff_right (Nat.lt_of_not_le hroom)]
    simp [keeping]

theorem keepFile_ok {f : OpenFile} :
    d.keepFile f = .ok d' ↔
      d.plan.keptDescriptors.length < Plan.maxKept ∧ d.holding [f] = d' := by
  simp only [keepFile, Error.bind_eq_ok, keep_ok]
  constructor
  · rintro ⟨_, ⟨hroom, rfl⟩, hd⟩
    exact ⟨hroom, by simpa [holding, keeping, pure, Except.pure] using hd⟩
  · rintro ⟨hroom, rfl⟩
    exact ⟨_, ⟨hroom, rfl⟩, rfl⟩

theorem holding_holding (d : Draft) (fs gs : List OpenFile) :
    (d.holding fs).holding gs = d.holding (fs ++ gs) := by
  simp [holding, keeping]

@[simp] theorem holding_nil (d : Draft) : d.holding [] = d := by
  simp [holding, keeping]

/-- Several files are kept exactly if there is room for all of their
descriptors. -/
theorem keepFiles_ok {fs : List OpenFile} :
    d.keepFiles fs = .ok d' ↔
      (fs = [] ∨ d.plan.keptDescriptors.length + fs.length ≤ Plan.maxKept) ∧
        d.holding fs = d' := by
  induction fs generalizing d with
  | nil => simp [keepFiles, pure, Except.pure]
  | cons f rest ih =>
      have hsplit : d.keepFiles (f :: rest) = d.keepFile f >>= fun d => d.keepFiles rest := by
        simp [keepFiles, List.foldlM_cons]
      rw [hsplit, Error.bind_eq_ok]
      simp only [keepFile_ok, ih]
      constructor
      · rintro ⟨_, ⟨hroom, rfl⟩, hrest, hd⟩
        rw [holding_holding] at hd
        refine ⟨Or.inr ?_, hd⟩
        rcases hrest with rfl | hrest
        · exact hroom
        · simpa [holding, keeping, Nat.add_assoc, Nat.add_comm rest.length] using hrest
      · rintro ⟨hroom, hd⟩
        have hroom' : d.plan.keptDescriptors.length + (rest.length + 1) ≤ Plan.maxKept := by
          simpa using hroom
        refine ⟨_, ⟨by omega, rfl⟩, Or.inr ?_, by rw [holding_holding]; exact hd⟩
        simpa [holding, keeping, Nat.add_assoc, Nat.add_comm 1] using hroom'

/-- Nothing but a full plan keeps a descriptor out. -/
theorem keep_error {fd : Int32} {e : Error} :
    d.keep fd = .error e ↔
      Plan.maxKept ≤ d.plan.keptDescriptors.length ∧ Plan.tooManyKept = e := by
  by_cases hfull : Plan.maxKept ≤ d.plan.keptDescriptors.length
  · simp [keep, Plan.keep, hfull, Bind.bind, Except.bind]
  · simp [keep, Plan.keep, hfull, Bind.bind, Except.bind, pure, Except.pure]

theorem keepFiles_error {fs : List OpenFile} {e : Error} (hkeep : d.keepFiles fs = .error e) :
    e = Plan.tooManyKept := by
  induction fs generalizing d with
  | nil => simp [keepFiles, pure, Except.pure] at hkeep
  | cons f rest ih =>
      simp only [keepFiles, List.foldlM_cons] at hkeep
      cases hfirst : d.keepFile f with
      | ok d₁ =>
          rw [hfirst] at hkeep
          exact ih hkeep
      | error e₁ =>
          have heq : e₁ = e := by
            simpa [hfirst, Bind.bind, Except.bind] using hkeep
          subst heq
          cases hroom : d.keep (descriptor f) with
          | ok d₁ => simp [keepFile, hroom, Bind.bind, Except.bind, pure, Except.pure] at hfirst
          | error e₂ =>
              have : e₂ = e₁ := by
                simpa [keepFile, hroom, Bind.bind, Except.bind] using hfirst
              exact this ▸ (keep_error.mp hroom).2.symm

/-! ## The opening steps -/

/-- The current directory that a launch starts from. -/
def directoryOf (c : LaunchConfig) (h : Host) : Path :=
  (c.cwd.or h.currentDirectory).getD ⟨"/"⟩

/-- A draft with a current directory. -/
def inDirectory (d : Draft) (p : Path) : Draft :=
  { d with config := { d.config with cwd := some p } }

/-- What the user is told about the current directory. -/
def directoryNotices (c : LaunchConfig) (h : Host) : List Notice :=
  if (c.cwd.or h.currentDirectory).isSome then [] else [.noWorkingDirectory]

theorem perform_withDirectory (d : Draft) (h : Host) :
    d.withDirectory.perform h =
      (.ok (d.inDirectory (directoryOf d.config h)), h.tellAll (directoryNotices d.config h)) := by
  cases hcwd : d.config.cwd with
  | some p =>
      have hsame : d.inDirectory p = d := by
        simp [inDirectory, ← hcwd]
      simp [withDirectory, hcwd, Action.perform_pure, directoryOf, directoryNotices, hsame]
  | none =>
      cases hdir : h.currentDirectory with
      | some p =>
          simp [withDirectory, hcwd, Action.perform_bind, Action.perform_observe, hdir,
            Action.perform_pure, directoryOf, directoryNotices, inDirectory]
      | none =>
          simp [withDirectory, hcwd, Action.perform_bind, Action.perform_observe, hdir,
            Action.perform_map, Action.perform_notify, Except.map, directoryOf, directoryNotices,
            inDirectory, Host.tell, Host.tellAll]

/-- A draft for somebody else than the superuser, if the superuser asks for that. -/
def forTarget (d : Draft) (caller : Caller) : Draft :=
  if asksForTarget d.config caller then
    { d with
      plan := ({ d.plan with targetUid := d.config.targetUid } : Plan).withTargetGids
        d.config.targetGids
      config := { d.config with
        process := { d.config.process with noNewPrivileges := true } } }
  else d

/-- What the superuser is told who asks for somebody else. -/
def targetNotices (c : LaunchConfig) (caller : Caller) : List Notice :=
  if asksForTarget c caller then Plan.gidNotices c.targetGids else []

theorem perform_withTarget (d : Draft) (caller : Caller) (h : Host) :
    (d.withTarget caller).perform h =
      (.ok (d.forTarget caller), h.tellAll (targetNotices d.config caller)) := by
  by_cases hasks : asksForTarget d.config caller = true
  · simp [withTarget, hasks, forTarget, targetNotices, Action.perform_map,
      Action.perform_notifyAll, Except.map]
  · simp [withTarget, hasks, forTarget, targetNotices, Action.perform_pure]

/-! ## What later steps decide -/

/-- A draft with the information about a user. -/
def withUser (d : Draft) (u : ContainerUser) : Draft :=
  { d with config := { d.config with userInfo := some u } }

theorem perform_withUserInfo (d : Draft) (caller : Caller) (useTarget : Bool) (h : Host) :
    (d.withUserInfo caller useTarget).perform h =
      (.ok (d.withUser (ContainerUser.describe h.users caller
        (if useTarget then some ⟨d.config.targetUid, d.config.targetGids⟩ else none))), h) := by
  simp [withUserInfo, Action.perform_map, Action.perform_observe, Except.map, withUser]

theorem quiet_withUserInfo (d : Draft) (caller : Caller) (useTarget : Bool) :
    Action.Quiet (d.withUserInfo caller useTarget) := by
  intro h
  rw [perform_withUserInfo]

/-- A draft whose process has what it was given. -/
def granted (d : Draft) (g : Grant) : Draft :=
  { d with
    config := { d.config with
      process := { d.config.process with
        noNewPrivileges := d.config.process.noNewPrivileges || g.noNewPrivileges
        capabilities := .uniform g.set } } }

theorem perform_withCapabilities (d : Draft) (files : AdminFiles) (caller : Caller)
    (enforced targetIds : Bool) (h : Host) :
    (d.withCapabilities files caller enforced targetIds).perform h =
      (.ok (d.granted (grant files caller enforced (capabilityRequest d.config targetIds))),
        h.tellAll (grant files caller enforced (capabilityRequest d.config targetIds)).notices) := by
  simp [withCapabilities, Action.perform_map, Action.perform_notifyAll, Except.map, granted]

theorem quiet_withCapabilities (d : Draft) (files : AdminFiles) (caller : Caller)
    (enforced targetIds : Bool) :
    Action.Quiet (d.withCapabilities files caller enforced targetIds) := by
  intro h
  rw [perform_withCapabilities]
  rfl

/-- A draft with the security options applied, and a seccomp profile that was
read for them. -/
def secured (d : Draft) (seccomp : Option Json) : Draft :=
  { d with
    config := { d.config with
      process := { d.config.process with
        selinuxLabel := (d.config.securityOption "selinux").or d.config.process.selinuxLabel
        apparmorProfile :=
          (d.config.securityOption "apparmor").or d.config.process.apparmorProfile
        seccomp := seccomp.or d.config.process.seccomp } } }

theorem withSecurity_ok :
    d.withSecurity.perform h = (.ok d', h') ↔
      ∃ seccomp, seccompOption h d.config = .ok seccomp ∧ d.secured seccomp = d' ∧ h = h' := by
  simp only [withSecurity, Action.perform_observe_bind, Action.perform_ofExcept_bind_ok,
    Action.perform_pure_ok, secured, id]

theorem quiet_withSecurity (d : Draft) : Action.Quiet d.withSecurity :=
  Action.quiet_bind (Action.quiet_observe _) fun _ =>
    Action.quiet_bind (Action.quiet_ofExcept _) fun _ => Action.quiet_pure _

end ContainerLaunch.Draft
