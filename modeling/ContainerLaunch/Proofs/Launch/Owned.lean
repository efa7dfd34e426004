import ContainerLaunch.Proofs.Launch.Preparation
/-!
# What a draft has open

A draft has the descriptors of its images and those of the files that it holds, and its
plan keeps exactly these.  The steps that open something add to both at once, whatever
they open, and no other step touches either.
-/

namespace ContainerLaunch

/-- The number of a descriptor as a plan has it. -/
def Descriptor.recorded (d : Descriptor) : Int32 := FuseMount.recorded d.number

namespace Draft

variable {l : Launcher} {policy : AdminFiles} {d d' : Draft} {h₀ h h' : Host}

/-- The descriptors that a draft has open. -/
def owned (d : Draft) : List Descriptor :=
  (d.images.map fun i => i.file.tableEntry) ++ d.held.map OpenFile.tableEntry

/-- A draft that has what was opened since a host was as it was, and whose plan keeps just
that. -/
structure Accounted (h₀ : Host) (d : Draft) (h : Host) : Prop where
  opened : h₀.Opened d.owned h
  kept_perm : d.plan.keptDescriptors.Perm (d.owned.map Descriptor.recorded)
  imageFd_kept : ∀ fd, d.plan.imageFd = some fd → fd ∈ d.plan.keptDescriptors
  workingDirectory_kept : ∀ fd, d.plan.workingDirectoryFd = some fd →
    fd ∈ d.plan.keptDescriptors

/-! ## Steps that open nothing -/

/-- Two drafts with the same descriptors. -/
structure SameHandles (d d' : Draft) : Prop where
  images : d'.images = d.images
  held : d'.held = d.held
  kept : d'.plan.keptDescriptors = d.plan.keptDescriptors
  imageFd : d'.plan.imageFd = d.plan.imageFd
  workingDirectoryFd : d'.plan.workingDirectoryFd = d.plan.workingDirectoryFd

theorem Accounted.of_same (hacc : Accounted h₀ d h) (hsame : SameHandles d d')
    (htable : h'.descriptors = h.descriptors) : Accounted h₀ d' h' := by
  have howned : d'.owned = d.owned := by
    simp only [owned, hsame.images, hsame.held]
  refine ⟨?_, ?_, ?_, ?_⟩
  · have hopened := hacc.opened.trans (.of_same htable)
    rwa [List.append_nil, ← howned] at hopened
  · rw [hsame.kept, howned]
    exact hacc.kept_perm
  · rw [hsame.kept, hsame.imageFd]
    exact hacc.imageFd_kept
  · rw [hsame.kept, hsame.workingDirectoryFd]
    exact hacc.workingDirectory_kept

theorem Accounted.tellAll (hacc : Accounted h₀ d h) (ns : List Notice) :
    Accounted h₀ d (h.tellAll ns) :=
  hacc.of_same ⟨rfl, rfl, rfl, rfl, rfl⟩ rfl

theorem accounted_start (c : LaunchConfig) (h : Host) : Accounted h (start c) h where
  opened := .of_same rfl
  kept_perm := List.Perm.refl _
  imageFd_kept := fun _ hfd => nomatch hfd
  workingDirectory_kept := fun _ hfd => nomatch hfd

theorem sameHandles_freshWith (l : Launcher) (policy : AdminFiles) (targetIds : Bool)
    (maps : Option SubordinateMaps) (seccomp : Option Json) :
    SameHandles d (d.freshWith l policy targetIds maps seccomp) := by
  have hplan : ∀ d : Draft, (d.withNamespacePlan policy.policy l.facts.caller).plan.keptDescriptors =
        d.plan.keptDescriptors ∧
      (d.withNamespacePlan policy.policy l.facts.caller).plan.imageFd = d.plan.imageFd ∧
      (d.withNamespacePlan policy.policy l.facts.caller).plan.workingDirectoryFd =
        d.plan.workingDirectoryFd := by
    intro d
    simp only [withNamespacePlan]
    rw [Plan.withJoins_eq]
    exact ⟨rfl, rfl, rfl⟩
  obtain ⟨hkept, himage, hdir⟩ := hplan ((((d.inNamespaces
    (d.ruling l policy.policy).namespaces).granted (grant policy l.facts.caller l.facts.isSuid
      (capabilityRequest d.config targetIds))).rooted maps))
  refine ⟨freshWith_images _ _ _ _ _ _, ?_, hkept.trans ?_, himage.trans ?_, hdir.trans ?_⟩
  all_goals
    cases maps
    · rfl
    · rfl

/-! ## Steps that open something -/

/-- A step that opens descriptors, has them then and keeps them. -/
theorem Accounted.adding (hacc : Accounted h₀ d h) {ds : List Descriptor}
    (hopened : h.Opened ds h') (howned : d'.owned.Perm (d.owned ++ ds))
    (hkept : d'.plan.keptDescriptors.Perm
      (d.plan.keptDescriptors ++ ds.map Descriptor.recorded))
    (himage : ∀ fd, d'.plan.imageFd = some fd → fd ∈ d'.plan.keptDescriptors)
    (hdirectory : ∀ fd, d'.plan.workingDirectoryFd = some fd → fd ∈ d'.plan.keptDescriptors) :
    Accounted h₀ d' h' := by
  refine ⟨(hacc.opened.trans hopened).perm howned.symm, ?_, himage, hdirectory⟩
  have hall := hkept.trans (hacc.kept_perm.append_right _)
  rw [← List.map_append] at hall
  exact hall.trans (howned.symm.map _)

theorem Accounted.holding (hacc : Accounted h₀ d h) {files : List OpenFile}
    (hopened : h.Opened (files.map OpenFile.tableEntry) h') :
    Accounted h₀ (d.holding files) h' := by
  apply hacc.adding hopened
  · simp only [owned, Draft.holding, keeping, List.map_append, List.append_assoc]
    exact List.Perm.refl _
  · rw [List.map_map]
    exact List.Perm.refl _
  · intro fd hfd
    exact List.mem_append_left _ (hacc.imageFd_kept fd hfd)
  · intro fd hfd
    exact List.mem_append_left _ (hacc.workingDirectory_kept fd hfd)

/-! ## Images -/

theorem EntersRoot.kept_eq {root : Image} {files : List OpenFile} (henter : EntersRoot root d d')
    (hheld : d'.held = d.held ++ files) :
    d'.plan.keptDescriptors = d.plan.keptDescriptors ++ files.map descriptor := by
  cases henter with
  | stays _ =>
      have hnone : files = [] := List.self_eq_append_right.mp hheld
      rw [hnone, List.map_nil, List.append_nil]
  | directly _ _ _ =>
      have hnone : files = [] := List.self_eq_append_right.mp hheld
      rw [hnone, List.map_nil, List.append_nil]
      rfl
  | throughParent _ _ _ parent =>
      have hparent : [parent] = files := List.append_cancel_left hheld
      rw [← hparent]
      rfl

/-- The working directory is the root image or a file that is held, where it is set. -/
theorem EntersRoot.workingDirectoryFd_cases {root : Image} {fd : Int32}
    (henter : EntersRoot root d d') (hfd : d'.plan.workingDirectoryFd = some fd) :
    d.plan.workingDirectoryFd = some fd ∨ fd = descriptor root.file ∨
      fd ∈ d'.plan.keptDescriptors := by
  cases henter with
  | stays _ => exact Or.inl hfd
  | directly _ _ _ => exact Or.inr (Or.inl (Option.some.inj hfd).symm)
  | throughParent _ _ _ parent =>
      refine Or.inr (Or.inr ?_)
      rw [← Option.some.inj hfd]
      exact List.mem_append_right _ (List.mem_singleton_self _)

theorem EntersRoot.imageFd_eq {root : Image} (henter : EntersRoot root d d') :
    d'.plan.imageFd = d.plan.imageFd := by
  cases henter <;> rfl

theorem perm_append_append {α : Type} (as bs cs ds : List α) :
    (as ++ bs ++ (cs ++ ds)).Perm (as ++ cs ++ (bs ++ ds)) := by
  have hmiddle : (bs ++ (cs ++ ds)).Perm (cs ++ (bs ++ ds)) := by
    rw [← List.append_assoc, ← List.append_assoc]
    exact List.perm_append_comm.append_right ds
  rw [List.append_assoc, List.append_assoc]
  exact hmiddle.append_left as

theorem accounted_withImages {p : Policy} (hacc : Accounted h₀ d h)
    (hrun : (d.withImages l p).perform h = (.ok d', h')) :
    Accounted h₀ d' h' ∧ ∃ fd, d'.plan.imageFd = some fd := by
  obtain ⟨outcome, ns, root, h₁, overlays, h₂, bindPaths, binds, h₃, entered, files, hroot, -,
    hoverlays, hbinds, henter, hheld, hfiles, rfl⟩ := withImages_runs hrun
  have hloaded : h.Opened ((root :: overlays ++ binds).map fun i => i.file.tableEntry) h₃ := by
    have hopened := (Image.load_opened hroot).trans
      (hoverlays.opened.of_tellAll.trans hbinds.opened)
    rwa [← List.map_append] at hopened
  have hroot : root ∈ root :: overlays ++ binds :=
    List.mem_append_left _ List.mem_cons_self
  -- Of the three kinds of images only this matters now, that the root image is among them.
  generalize root :: overlays ++ binds = images at hloaded hroot ⊢
  have hkept : entered.plan.keptDescriptors = d.plan.keptDescriptors ++ files.map descriptor :=
    henter.kept_eq hheld
  have himage : entered.plan.imageFd = some (descriptor root.file) := henter.imageFd_eq
  have hnew : ∀ fd, fd ∈ entered.plan.keptDescriptors ∨ fd = descriptor root.file →
      fd ∈ (entered.withEntries images).plan.keptDescriptors := by
    rintro fd (hfd | rfl)
    · exact List.mem_append_left _ hfd
    · exact List.mem_append_right _ (List.mem_map_of_mem hroot)
  refine ⟨hacc.adding (hloaded.trans hfiles) ?_ ?_ ?_ ?_, descriptor root.file, himage⟩
  · have hstack : (entered.withEntries images).images = d.images ++ images :=
      congrArg (fun is => is ++ images) henter.same.2
    have hfiles : (entered.withEntries images).held = d.held ++ files := hheld
    simp only [owned, hstack, hfiles, List.map_append]
    exact perm_append_append _ _ _ _
  · change (entered.plan.keptDescriptors ++ images.map fun i => descriptor i.file).Perm _
    rw [hkept, List.map_append, List.map_map, List.map_map, List.append_assoc]
    exact List.perm_append_comm.append_left _
  · intro fd hfd
    exact hnew fd (Or.inr (Option.some.inj (hfd.symm.trans himage)))
  · intro fd hfd
    rcases henter.workingDirectoryFd_cases hfd with hold | hroot | hfd
    · refine hnew fd (Or.inl ?_)
      rw [hkept]
      exact List.mem_append_left _ (hacc.workingDirectory_kept fd hold)
    · exact hnew fd (Or.inr hroot)
    · exact hnew fd (Or.inl hfd)

theorem fuseMounts_withImages {p : Policy}
    (hrun : (d.withImages l p).perform h = (.ok d', h')) :
    d'.config.fuseMounts = d.config.fuseMounts := by
  obtain ⟨outcome, root, overlays, binds, bindPaths, entered, -, henter, rfl⟩ :=
    withImages_ok hrun
  have hsame := congrArg LaunchConfig.fuseMounts henter.same.1
  exact hsame

/-! ## The process of an instance -/

/-- A draft whose working directory and image are the directory of a process. -/
def standingIn (d : Draft) (directory : OpenFile) : Draft :=
  { d.holding [directory] with
    plan := { (d.holding [directory]).plan with
      workingDirectoryFd := some (descriptor directory)
      imageFd := some (descriptor directory) } }

theorem Accounted.standingIn (hacc : Accounted h₀ d h) {directory : OpenFile}
    (hopened : h.Opened [directory.tableEntry] h') :
    Accounted h₀ (d.standingIn directory) h' := by
  have hheld : Accounted h₀ (d.holding [directory]) h' := hacc.holding hopened
  have hkept : descriptor directory ∈ (d.holding [directory]).plan.keptDescriptors :=
    List.mem_append_right _ (List.mem_singleton_self _)
  refine ⟨hheld.opened, hheld.kept_perm, ?_, ?_⟩
  · rintro fd ⟨⟩
    exact hkept
  · rintro fd ⟨⟩
    exact hkept

theorem sameHandles_inProcess (directory : OpenFile) (namespaces : NamespaceList) :
    SameHandles (d.standingIn directory) (d.inProcess directory namespaces) := by
  simp only [inProcess]
  rw [Plan.withJoins_eq]
  exact ⟨rfl, rfl, rfl, rfl, rfl⟩

theorem sameHandles_takingOver {enforced : Bool} {directory : OpenFile}
    {original : LaunchConfig} {seccomp : Option Json} {users : Directory} :
    SameHandles (d.standingIn directory)
      (d.takingOver l policy enforced directory original seccomp users) := by
  have hin := sameHandles_inProcess (d := d) directory original.namespaces
  have hplan : (d.takingOver l policy enforced directory original seccomp users).plan =
      if original.fakeroot then
        { (d.inProcess directory original.namespaces).plan with targetUid := 0, targetGids := [0] }
      else (d.inProcess directory original.namespaces).plan := rfl
  refine ⟨hin.images, hin.held, ?_, ?_, ?_⟩
  all_goals
    rw [hplan]
    split
  · exact hin.kept
  · exact hin.kept
  · exact hin.imageFd
  · exact hin.imageFd
  · exact hin.workingDirectoryFd
  · exact hin.workingDirectoryFd

theorem enterCgroup_descriptors {record : InstanceRecord}
    (hrun : (enterCgroup record).perform h = (.ok (), h')) : h'.descriptors = h.descriptors := by
  rcases enterCgroup_ok hrun with ⟨-, rfl⟩ | ⟨place, inode, -, rfl⟩
  · rfl
  · rfl

end Draft

/-! ## The container -/

namespace Launcher

variable {l : Launcher} {files : AdminFiles} {c : LaunchConfig} {d : Draft} {h h' : Host}

theorem accounted_opening (l : Launcher) (c : LaunchConfig) (h : Host) :
    (opening l c h).Accounted h (opened l c h) := by
  have hsame : (Draft.start c).SameHandles (opening l c h) := by
    unfold opening Draft.forTarget
    split
    · exact ⟨rfl, rfl, rfl, rfl, rfl⟩
    · exact ⟨rfl, rfl, rfl, rfl, rfl⟩
  exact (Draft.accounted_start c h).of_same hsame rfl

/-- The draft of a new container or of a joined instance has what was opened for it, and
says where its image is. -/
theorem accounted_container
    (hrun : (l.container files c (opening l c h)).perform (opened l c h) = (.ok d, h')) :
    d.Accounted h h' ∧ (∃ fd, d.plan.imageFd = some fd) ∧
      d.config.fuseMounts = c.fuseMounts := by
  have hstart := accounted_opening l c h
  have hmounts : (opening l c h).config.fuseMounts = c.fuseMounts := by
    rw [opening_config]
  cases hjoin : c.instanceJoin.isSome with
  | false =>
      rw [container_eq_draftFresh hjoin] at hrun
      obtain ⟨user, d₁, h₁, d₂, h₂, pinned, hmade, himages, hpinned, rfl⟩ := draftFresh_ok hrun
      obtain ⟨-, -, maps, seccomp, -, -, rfl, rfl⟩ := Draft.fresh_ok.mp hmade
      have huser : ((opening l c h).withUser user).Accounted h (opened l c h) :=
        hstart.of_same ⟨rfl, rfl, rfl, rfl, rfl⟩ rfl
      have hsame := Draft.sameHandles_freshWith (d := (opening l c h).withUser user) l files
        (Draft.asksForTarget c l.facts.caller) maps seccomp
      have hfresh : Draft.Accounted h (((opening l c h).withUser user).freshWith l files
          (Draft.asksForTarget c l.facts.caller) maps seccomp) (opened l c h) :=
        huser.of_same hsame rfl
      obtain ⟨hacc, fd, hfd⟩ := Draft.accounted_withImages (hfresh.tellAll _) himages
      refine ⟨hacc.holding hpinned, ⟨fd, hfd⟩, ?_⟩
      refine (Draft.fuseMounts_withImages himages).trans ?_
      rw [Draft.freshWith_config]
      exact hmounts
  | true =>
      rw [container_eq_join hjoin] at hrun
      obtain ⟨record, original, d₁, h₁, htake, henter, rfl⟩ := Draft.join_ok.mp hrun
      obtain ⟨enforced, directory, h₂, seccomp, hexamined, rfl, -, htaken⟩ :=
        Draft.takeOver_ok htake
      have hsame : ((opening l c h).standingIn directory).SameHandles d₁ := by
        rw [← htaken]
        exact Draft.sameHandles_takingOver
      have hkept : d₁.config.fuseMounts = (opening l c h).config.fuseMounts := by
        rw [← htaken]
        exact Draft.takingOver_fuseMounts
      have hopened := Action.openFile_opened hexamined.directory_opened
      have hacc := ((hstart.standingIn hopened).tellAll _).of_same hsame
        (Draft.enterCgroup_descriptors henter)
      exact ⟨hacc.of_same ⟨rfl, rfl, rfl, rfl, rfl⟩ rfl, ⟨_, hsame.imageFd⟩,
        hkept.trans hmounts⟩

end Launcher
end ContainerLaunch
