import ContainerLaunch.Proofs.Launch.Preparation
/-!
# The list of images

The next stage is told about the images of a launch by a list in the
configuration.  A preparation adds one entry for each image that it opened, but
it starts from the list that the request came with, so the list is authentic
exactly if the request left it empty.
-/

namespace ContainerLaunch.Launcher

variable {l : Launcher} {c : LaunchConfig} {h h' : Host} {r : ReadyLaunch}

/-! ## Joined instances -/

/-- A launch that joins an instance opens no image and keeps the list of the
request. -/
theorem join_imageList (hjoin : c.instanceJoin.isSome = true)
    (hrun : (l.prepare c).perform h = (.ok r, h')) :
    r.images = [] ∧ r.config.imageList = c.imageList := by
  obtain ⟨files, record, original, d₁, h₁, handles, ends, -, htake, rfl⟩ :=
    prepare_join_ok hjoin hrun
  obtain ⟨enforced, directory, h₂, seccomp, -, -, -, rfl⟩ := Draft.takeOver_ok htake
  constructor
  · rw [closed_images, Draft.restorePrivileges_eq, Draft.takingOver_images, opening_images]
  · rw [closed_imageList, Draft.restorePrivileges_eq, Draft.takingOver_imageList, opening_config]

/-! ## New containers -/

/-- Nothing that a launch settles before its images is about images. -/
theorem freshWith_opening (l : Launcher) (c : LaunchConfig) (h : Host) (user : ContainerUser)
    (files : AdminFiles) (targetIds : Bool) (maps : Option SubordinateMaps)
    (seccomp : Option Json) :
    let d := ((opening l c h).withUser user).freshWith l files targetIds maps seccomp
    d.images = [] ∧ d.config.imageList = c.imageList ∧ d.config.image = c.image ∧
      d.config.writableImage = c.writableImage ∧ d.config.bindPaths = c.bindPaths := by
  refine ⟨?_, ?_, ?_, ?_, ?_⟩
  · rw [Draft.freshWith_images]
    exact opening_images l c h
  all_goals
    rw [Draft.freshWith_config]
    simp only [Draft.withUser]
    rw [opening_config]

/-- The images of a new container are those that its request asks for: first the
root image, then the overlays of its layer, then the images of its bind mounts.
Each adds one entry to the list of the request. -/
theorem fresh_imageList (hfresh : c.instanceJoin = none)
    (hrun : (l.prepare c).perform h = (.ok r, h')) :
    r.config.imageList = c.imageList ++ r.images.map Draft.entryOf ∧
      ∃ files root overlays binds, l.loadPolicy c h = .ok files ∧
        r.images = root :: overlays ++ binds ∧
        Image.OpenedFor files.policy l.inspect h .root c.image c.writableImage root ∧
        List.Forall₂ (fun spec image =>
            Image.OpenedFor files.policy l.inspect h .overlay spec.path spec.writable image)
          (Draft.overlaySpecs r.config) overlays ∧
        List.Forall₂ (fun b image =>
            Image.OpenedFor files.policy l.inspect h .data b.source (!b.readonly) image)
          (c.bindPaths.filter BindMount.namesImage) binds := by
  obtain ⟨files, user, d₁, h₁, d₂, h₂, pinned, handles, ends, hfiles, hmade, himages, rfl⟩ :=
    prepare_fresh_ok hfresh hrun
  obtain ⟨-, -, maps, seccomp, -, -, rfl, rfl⟩ := Draft.fresh_ok.mp hmade
  obtain ⟨outcome, root, overlays, binds, bindPaths, entered, hstack, henter, rfl⟩ :=
    Draft.withImages_ok himages
  obtain ⟨hnone, hlist, hroot, hwritable, hbinds⟩ := freshWith_opening l c h user files
    (Draft.asksForTarget c l.facts.caller) maps seccomp
  obtain ⟨hconfig, hopened⟩ := henter.same
  have himages : (entered.withEntries (root :: overlays ++ binds)).images =
      root :: overlays ++ binds := by
    simp only [Draft.withEntries, hopened, Draft.onRoot, Draft.layered, hnone, List.nil_append]
  have hentries : (entered.withEntries (root :: overlays ++ binds)).config.imageList =
      c.imageList ++ (root :: overlays ++ binds).map Draft.entryOf := by
    simp only [Draft.withEntries, hconfig, Draft.onRoot, Draft.layered, Draft.applyLayer, hlist]
  refine ⟨?_, files, root, overlays, binds, hfiles, himages, ?_, ?_, ?_⟩
  · refine hentries.trans ?_
    rw [closed_images]
    exact congrArg (fun is => c.imageList ++ is.map Draft.entryOf) himages.symm
  · rw [← hroot, ← hwritable]
    exact hstack.root_opened
  · have hspecs : Draft.overlaySpecs
        ((entered.withEntries (root :: overlays ++ binds)).holding pinned).config =
          Draft.overlaySpecs entered.config := Draft.overlaySpecs_congr rfl rfl
    rw [closed_overlaySpecs, hspecs, hconfig]
    exact hstack.overlays_opened
  · rw [← hbinds]
    exact hstack.binds_opened

/-! ## Every launch -/

/-- The list of images that is handed on is the list of the request with one entry
for each image that the launch has opened: none for a joined instance, and for a
new container the root image, the overlays and the images of bind mounts.  It is
the list of the opened images if and only if the request brings no entries. -/
theorem imageList_authentic_iff (hrun : (l.prepare c).perform h = (.ok r, h')) :
    r.config.imageList = c.imageList ++ r.images.map Draft.entryOf ∧
      (r.config.imageList = r.images.map Draft.entryOf ↔ c.imageList = []) ∧
      (c.instanceJoin.isSome = true → r.images = []) ∧
      (c.instanceJoin = none →
        ∃ files root overlays binds, l.loadPolicy c h = .ok files ∧
          r.images = root :: overlays ++ binds ∧
          Image.OpenedFor files.policy l.inspect h .root c.image c.writableImage root ∧
          List.Forall₂ (fun spec image =>
              Image.OpenedFor files.policy l.inspect h .overlay spec.path spec.writable image)
            (Draft.overlaySpecs r.config) overlays ∧
          List.Forall₂ (fun b image =>
              Image.OpenedFor files.policy l.inspect h .data b.source (!b.readonly) image)
            (c.bindPaths.filter BindMount.namesImage) binds) := by
  have hlist : r.config.imageList = c.imageList ++ r.images.map Draft.entryOf := by
    cases hjoin : c.instanceJoin with
    | none => exact (fresh_imageList hjoin hrun).1
    | some name =>
        obtain ⟨himages, hkept⟩ := join_imageList (by rw [hjoin]; rfl) hrun
        rw [himages, hkept, List.map_nil, List.append_nil]
  refine ⟨hlist, ?_, ?_, ?_⟩
  · rw [hlist, List.append_left_eq_self]
  · intro hjoin
    exact (join_imageList hjoin hrun).1
  · intro hfresh
    exact (fresh_imageList hfresh hrun).2

/-! ## A request with an entry of its own -/

/-- A host with one sandbox. -/
def sandboxHost : Host :=
  .plain ⟨1000, 1000, 1000, []⟩ [["etc"], ["etc", "stagehand"], ["image"]]
    [(["etc", "stagehand", "stagehand.yaml"], "")]

/-- A request for the sandbox that already lists a writable root image. -/
def forgedList : String :=
  "\x7b\"image\":\"/image\",\"process\":\x7b\"args\":[\"sh\"]\x7d,\"imageList\":[" ++
    "\x7b\"path\":\"/etc\",\"source\":\"/etc\",\"format\":\"sandbox\"," ++
    "\"usage\":\"root\",\"writable\":true,\"fd\":0\x7d]\x7d"

/-- The entry that the request brings. -/
def forgedEntry : HeldImage := ⟨⟨"/etc"⟩, ⟨"/etc"⟩, .sandbox, .root, true, 0⟩

/-- The entry of the sandbox. -/
def sandboxEntry : HeldImage := ⟨⟨"/image"⟩, ⟨"/proc/self/fd/3"⟩, .sandbox, .root, false, 3⟩

theorem prepare_forgedList :
    ∃ c r h', LaunchConfig.parse forgedList = .ok c ∧
      ((onHost sandboxHost false).prepare c).perform sandboxHost = (.ok r, h') ∧
      r.config.imageList = [forgedEntry, sandboxEntry] ∧
      r.images.map Draft.entryOf = [sandboxEntry] := by
  obtain ⟨c, hparse, hc⟩ : ∃ c, LaunchConfig.parse forgedList = .ok c ∧
      ((((onHost sandboxHost false).prepare c).perform sandboxHost).1.toOption.map
          fun r => (r.config.imageList, r.images.map Draft.entryOf)) =
        some ([forgedEntry, sandboxEntry], [sandboxEntry]) :=
    Error.exists_ok_of_map (by decide +kernel)
  obtain ⟨r, h', hrun, hr⟩ := Action.exists_perform_ok hc
  exact ⟨c, r, h', hparse, hrun, congrArg Prod.fst hr, congrArg Prod.snd hr⟩

theorem imageList_authentic_iff_forgedList :
    ∃ c r h', LaunchConfig.parse forgedList = .ok c ∧
      ((onHost sandboxHost false).prepare c).perform sandboxHost = (.ok r, h') ∧
      r.config.imageList = c.imageList ++ r.images.map Draft.entryOf ∧
      (r.config.imageList = r.images.map Draft.entryOf ↔ c.imageList = []) := by
  obtain ⟨c, r, h', hparse, hrun, -, -⟩ := prepare_forgedList
  obtain ⟨hlist, hauthentic, -, -⟩ := imageList_authentic_iff hrun
  exact ⟨c, r, h', hparse, hrun, hlist, hauthentic⟩

/-- A request with an entry of its own hands on an image that nothing has opened. -/
theorem forged_entry_kept :
    ∃ c r h', LaunchConfig.parse forgedList = .ok c ∧
      ((onHost sandboxHost false).prepare c).perform sandboxHost = (.ok r, h') ∧
      r.config.imageList ≠ r.images.map Draft.entryOf ∧
      ∃ entry ∈ r.config.imageList, entry ∉ r.images.map Draft.entryOf := by
  obtain ⟨c, r, h', hparse, hrun, hlist, hopened⟩ := prepare_forgedList
  have hforeign : forgedEntry ∉ [sandboxEntry] := by decide
  refine ⟨c, r, h', hparse, hrun, ?_, forgedEntry, ?_, ?_⟩
  · rw [hlist, hopened]
    decide
  · rw [hlist]
    exact List.mem_cons_self
  · rw [hopened]
    exact hforeign

end ContainerLaunch.Launcher
