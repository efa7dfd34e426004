import ContainerLaunch.Launch.ImageStack
import ContainerLaunch.Launch.NewContainer
import ContainerLaunch.Proofs.Launch.Loading
import ContainerLaunch.Proofs.Launch.Shared
/-!
# The images of a new container

Which images a successful run has opened, in terms of the request, and what the
draft records about them.
-/

namespace ContainerLaunch

namespace Draft

variable {l : Launcher} {policy : Policy} {d d' : Draft} {h h' : Host}

/-! ## Overlays -/

theorem quiet_loadOverlays (l : Launcher) (policy : Policy) (written : Option Path)
    (specs : List OverlayRequest) : Action.Quiet (loadOverlays l policy written specs) := by
  induction specs generalizing written with
  | nil => exact Action.quiet_pure _
  | cons spec rest ih =>
      refine Action.quiet_bind (Image.quiet_load _ _ _ _) fun image => ?_
      refine Action.quiet_ite ?_ (Action.quiet_bind (ih _) fun _ => Action.quiet_pure _)
      cases written with
      | some existing => exact Action.quiet_fail _
      | none => exact Action.quiet_bind (ih _) fun _ => Action.quiet_pure _

/-- How an overlay is to be loaded. -/
def overlayOf (spec : OverlayRequest) : Path × Bool := (spec.path, spec.writable)

theorem loadOverlays_ok {written : Option Path} {specs : List OverlayRequest}
    {r : List Image × Option Path}
    (hrun : (loadOverlays l policy written specs).perform h = (.ok r, h')) :
    Image.LoadsEach policy l.inspect .overlay (specs.map overlayOf) r.1 h h' := by
  induction specs generalizing written r h h' with
  | nil =>
      simp only [loadOverlays, Action.perform_pure_ok] at hrun
      obtain ⟨rfl, rfl⟩ := hrun
      exact .nil h
  | cons spec rest ih =>
      simp only [loadOverlays] at hrun
      obtain ⟨image, h₁, hload, hrest⟩ := Action.perform_bind_ok.mp hrun
      -- Each way on puts the image before what is opened for the rest.
      have hcons : ∀ {written : Option Path},
          (loadOverlays l policy written rest >>= fun more =>
            pure ({ image with usage := .overlay } :: more.1, more.2)).perform h₁ = (.ok r, h') →
          Image.LoadsEach policy l.inspect .overlay ((spec :: rest).map overlayOf) r.1 h h' := by
        intro written hmore
        obtain ⟨more, h₂, htail, hr⟩ := Action.perform_bind_ok.mp hmore
        obtain ⟨rfl, rfl⟩ := Action.perform_pure_ok.mp hr
        exact .cons [] hload (by rw [Host.tellAll_nil]; exact ih htail)
      split at hrest
      · cases written with
        | some existing => simp at hrest
        | none => exact hcons hrest
      · exact hcons hrest

theorem quiet_overlayImages (l : Launcher) (policy : Policy) (root : Image) (c : LaunchConfig) :
    Action.Quiet (overlayImages l policy root c) := by
  refine Action.quiet_bind (quiet_loadOverlays _ _ _ _) fun r => ?_
  dsimp only
  split
  · exact Action.quiet_fail _
  · exact Action.quiet_pure _

theorem overlayImages_ok {root : Image} {c : LaunchConfig} {images : List Image}
    (hrun : (overlayImages l policy root c).perform h = (.ok images, h')) :
    Image.LoadsEach policy l.inspect .overlay
      ((c.overlayImages.map OverlayRequest.parse).map overlayOf) images h h' := by
  simp only [overlayImages] at hrun
  obtain ⟨r, h₁, hload, hrest⟩ := Action.perform_bind_ok.mp hrun
  have hloads := loadOverlays_ok hload
  have hsame : r.1 = images ∧ h₁ = h' := by
    split at hrest
    · simp at hrest
    · exact Action.perform_pure_ok.mp hrest
  rwa [hsame.1, hsame.2] at hloads

/-! ## Images that are bound into the container -/

theorem quiet_loadBind (l : Launcher) (policy : Policy) (b : BindMount) :
    Action.Quiet (loadBind l policy b) := by
  refine Action.quiet_bind (Image.quiet_load _ _ _ _) fun image => ?_
  have hrest : Action.Quiet (do
      Action.ofExcept (checkPartition b { image with usage := .data })
      return ({ b with
          source := Image.source { image with usage := .data }
          readonly := b.readonly || !image.writable }, { image with usage := .data })) :=
    Action.quiet_bind (Action.quiet_ofExcept _) fun _ => Action.quiet_pure _
  exact Action.quiet_ite (Action.quiet_bind (Action.quiet_notify _) fun _ => hrest) hrest

theorem quiet_loadBinds (l : Launcher) (policy : Policy) (bs : List BindMount) :
    Action.Quiet (loadBinds l policy bs) := by
  induction bs with
  | nil => exact Action.quiet_pure _
  | cons b rest ih =>
      refine Action.quiet_ite ?_ (Action.quiet_bind ih fun _ => Action.quiet_pure _)
      refine Action.quiet_bind (quiet_loadBind _ _ _) fun first => ?_
      exact Action.quiet_bind ih fun _ => Action.quiet_pure _

/-- How the image that a bind mount names is to be loaded. -/
def imageOf (b : BindMount) : Path × Bool := (b.source, !b.readonly)

theorem loadBind_ok {b : BindMount} {r : BindMount × Image}
    (hrun : (loadBind l policy b).perform h = (.ok r, h')) :
    ∃ loaded h₁ ns, (Image.load policy l.inspect b.source (!b.readonly)).perform h =
        (.ok loaded, h₁) ∧ r.2 = { loaded with usage := .data } ∧ h' = h₁.tellAll ns := by
  simp only [loadBind] at hrun
  obtain ⟨loaded, h₁, hload, hrest⟩ := Action.perform_bind_ok.mp hrun
  by_cases hwarn : (!b.readonly && !loaded.writable) = true
  · simp only [hwarn, if_true, Action.perform_notify_bind, Action.perform_ofExcept_bind_ok,
      Action.perform_pure_ok] at hrest
    obtain ⟨_, -, rfl, rfl⟩ := hrest
    exact ⟨loaded, h₁, _, hload, rfl, rfl⟩
  · simp only [hwarn, if_false, Bool.false_eq_true, Action.perform_ofExcept_bind_ok,
      Action.perform_pure_ok] at hrest
    obtain ⟨_, -, rfl, rfl⟩ := hrest
    exact ⟨loaded, h₁, [], hload, rfl, (Host.tellAll_nil h₁).symm⟩

theorem loadBinds_ok {bs : List BindMount} {r : List BindMount × List Image}
    (hrun : (loadBinds l policy bs).perform h = (.ok r, h')) :
    Image.LoadsEach policy l.inspect .data ((bs.filter BindMount.namesImage).map imageOf)
      r.2 h h' := by
  induction bs generalizing r h h' with
  | nil =>
      simp only [loadBinds, Action.perform_pure_ok] at hrun
      obtain ⟨rfl, rfl⟩ := hrun
      exact .nil h
  | cons b rest ih =>
      simp only [loadBinds] at hrun
      by_cases himage : b.namesImage = true
      · simp only [himage, if_true] at hrun
        obtain ⟨first, h₁, hfirst, hrest⟩ := Action.perform_bind_ok.mp hrun
        obtain ⟨more, h₂, hmore, hr⟩ := Action.perform_bind_ok.mp hrest
        obtain ⟨rfl, rfl⟩ := Action.perform_pure_ok.mp hr
        obtain ⟨loaded, h₃, ns, hload, hdata, rfl⟩ := loadBind_ok hfirst
        simp only [List.filter_cons, himage, if_true, hdata]
        exact .cons ns hload (ih hmore)
      · simp only [himage, if_false, Bool.false_eq_true] at hrun
        obtain ⟨more, h₁, hmore, hr⟩ := Action.perform_bind_ok.mp hrun
        obtain ⟨rfl, rfl⟩ := Action.perform_pure_ok.mp hr
        simp only [List.filter_cons, himage, if_false, Bool.false_eq_true]
        exact ih hmore

/-! ## What is recorded -/

/-- A draft with more images and their entries. -/
def withEntries (d : Draft) (images : List Image) : Draft :=
  { d.keeping (images.map fun i => descriptor i.file) with
    config := { d.config with imageList := d.config.imageList ++ images.map entryOf }
    images := d.images ++ images }

theorem addImage_ok {image : Image} :
    d.addImage image = .ok d' ↔
      d.plan.keptDescriptors.length < Plan.maxKept ∧ d.withEntries [image] = d' := by
  simp only [addImage, Error.bind_eq_ok, keep_ok]
  constructor
  · rintro ⟨_, ⟨hroom, rfl⟩, hd⟩
    exact ⟨hroom, by simpa [withEntries, keeping, pure, Except.pure] using hd⟩
  · rintro ⟨hroom, rfl⟩
    exact ⟨_, ⟨hroom, rfl⟩, rfl⟩

theorem withEntries_withEntries (d : Draft) (is js : List Image) :
    (d.withEntries is).withEntries js = d.withEntries (is ++ js) := by
  simp [withEntries, keeping]

/-- Every image that is added is recorded once, in order. -/
theorem foldlM_addImage_ok {images : List Image}
    (hadd : images.foldlM addImage d = .ok d') : d.withEntries images = d' := by
  induction images generalizing d with
  | nil =>
      cases hadd
      simp [withEntries, keeping]
  | cons image rest ih =>
      rw [List.foldlM_cons] at hadd
      obtain ⟨d₁, hfirst, hrest⟩ := Error.bind_eq_ok.mp hadd
      obtain ⟨-, rfl⟩ := addImage_ok.mp hfirst
      rw [← ih hrest, withEntries_withEntries]
      rfl

/-! ## The layer and the working directory -/

theorem quiet_withLayer (l : Launcher) (policy : Policy) (root : Image) (d : Draft) :
    Action.Quiet (d.withLayer l policy root) :=
  Action.quiet_bind (Action.quiet_observe _) fun _ =>
    Action.quiet_bind (Action.quiet_ofExcept _) fun _ =>
      Action.quiet_bind (Action.quiet_notifyAll _) fun _ => Action.quiet_pure _

/-- What is said of the file system below a root image when the layer is chosen. -/
def lowerFileSystem (h : Host) (root : Image) : Option String :=
  if root.format = .sandbox then LowerFileSystem.reason h root.path else none

/-- A draft with a layer. -/
def layered (d : Draft) (outcome : LayerOutcome) : Draft :=
  { d with config := applyLayer d.config outcome }

theorem withLayer_ok {root : Image} :
    (d.withLayer l policy root).perform h = (.ok d', h') ↔
      ∃ choice, LayerChoice.choose
          (layerInputs l policy d.config root (lowerFileSystem h root)) = .ok choice ∧
        d.layered choice.decision = d' ∧ h.tellAll choice.notices = h' := by
  simp only [withLayer, Action.perform_observe_bind, Action.perform_ofExcept_bind_ok,
    Action.perform_notifyAll_bind, Action.perform_pure_ok, lowerFileSystem, layered, id]

/-- A draft whose working directory is a descriptor. -/
def workingIn (d : Draft) (f : OpenFile) : Draft :=
  { d with plan := { d.plan with workingDirectoryFd := some (descriptor f) } }

/-- How a draft enters its root image: not at all, unless it is a sandbox, and else
through the sandbox or through its parent directory, which is then kept. -/
inductive EntersRoot (root : Image) (d : Draft) : Draft → Prop
  | stays (hformat : root.format ≠ .sandbox) : EntersRoot root d d
  | directly (hformat : root.format = .sandbox) (hslash : root.path.same ⟨"/"⟩ = false)
      (hfuse : d.config.imageFuse = false) : EntersRoot root d (d.workingIn root.file)
  | throughParent (hformat : root.format = .sandbox) (hslash : root.path.same ⟨"/"⟩ = false)
      (hfuse : d.config.imageFuse = true) (parent : OpenFile) :
      EntersRoot root d ((d.holding [parent]).workingIn parent)

theorem quiet_enterSandbox (root : Image) (d : Draft) :
    Action.Quiet (d.enterSandbox root) := by
  refine Action.quiet_refuse (Action.quiet_ite ?_ (Action.quiet_pure _))
  refine Action.quiet_bind (Action.quiet_openFile _ _) fun directory => ?_
  exact Action.quiet_bind (Action.quiet_ofExcept _) fun _ => Action.quiet_pure _

theorem enterSandbox_ok {root : Image} (hformat : root.format = .sandbox)
    (hrun : (d.enterSandbox root).perform h = (.ok d', h')) :
    EntersRoot root d d' ∧
      ∃ files, d'.held = d.held ++ files ∧ h.Opened (files.map OpenFile.tableEntry) h' := by
  unfold enterSandbox at hrun
  obtain ⟨hslash, hrun⟩ := Action.perform_refuse_ok.mp hrun
  replace hslash := Bool.eq_false_iff.mpr hslash
  by_cases hfuse : d.config.imageFuse = true
  · simp only [hfuse, if_true] at hrun
    obtain ⟨parent, h₁, hopen, hkeep⟩ := Action.perform_bind_ok.mp hrun
    obtain ⟨d₁, hkept, hd⟩ := Action.perform_ofExcept_bind_ok.mp hkeep
    obtain ⟨-, rfl⟩ := keepFile_ok.mp hkept
    obtain ⟨rfl, rfl⟩ := Action.perform_pure_ok.mp hd
    exact ⟨.throughParent hformat hslash hfuse parent, [parent], rfl,
      Action.openFile_opened hopen⟩
  · simp only [hfuse, if_false, Bool.false_eq_true] at hrun
    obtain ⟨rfl, rfl⟩ := Action.perform_pure_ok.mp hrun
    exact ⟨.directly hformat hslash (Bool.eq_false_iff.mpr hfuse), [],
      (List.append_nil _).symm, .of_same rfl⟩

/-- Entering the root image changes nothing but the plan and the files that are
kept. -/
theorem EntersRoot.same {root : Image} (henter : EntersRoot root d d') :
    d'.config = d.config ∧ d'.images = d.images := by
  cases henter <;> exact ⟨rfl, rfl⟩

/-! ## The whole stack -/

theorem quiet_withImages (l : Launcher) (policy : Policy) (d : Draft) :
    Action.Quiet (d.withImages l policy) := by
  refine Action.quiet_refuse ?_
  refine Action.quiet_bind (Image.quiet_load _ _ _ _) fun root => ?_
  refine Action.quiet_refuse ?_
  refine Action.quiet_bind (quiet_withLayer _ _ _ _) fun d => ?_
  refine Action.quiet_bind (Action.quiet_ofExcept _) fun _ => ?_
  refine Action.quiet_either (quiet_overlayImages _ _ _ _) (Action.quiet_pure _) fun overlays => ?_
  refine Action.quiet_bind (quiet_loadBinds _ _ _) fun binds => ?_
  exact Action.quiet_either (quiet_enterSandbox _ _) (Action.quiet_pure _) fun _ =>
    Action.quiet_ofExcept _

/-- The overlays that are opened over a root image in a layer. -/
def overlaySpecs (c : LaunchConfig) : List OverlayRequest :=
  if c.sessionLayer = .overlay then c.overlayImages.map OverlayRequest.parse else []

theorem overlaySpecs_congr {c c' : LaunchConfig} (hlayer : c'.sessionLayer = c.sessionLayer)
    (himages : c'.overlayImages = c.overlayImages) : overlaySpecs c' = overlaySpecs c := by
  simp only [overlaySpecs, hlayer, himages]

/-- A draft over a root image, with its bind mounts. -/
def onRoot (d : Draft) (root : Image) (bindPaths : List BindMount) : Draft :=
  { d with
    config := { d.config with bindPaths := bindPaths }
    plan := { d.plan with imageFd := some (descriptor root.file) } }

/-- What a successful run has opened: the root image, the overlays and the images
of bind mounts that the request asks for, in this order and nothing else. -/
structure Stack (l : Launcher) (policy : Policy) (h : Host) (c : LaunchConfig)
    (outcome : LayerOutcome) (root : Image) (overlays binds : List Image) : Prop where
  root_opened : Image.OpenedFor policy l.inspect h .root c.image c.writableImage root
  root_writable : c.writableImage = true → root.writable = true ∧ c.overlayImages = []
  overlays_opened : List.Forall₂ (fun spec image =>
    Image.OpenedFor policy l.inspect h .overlay spec.path spec.writable image)
    (overlaySpecs (applyLayer c outcome)) overlays
  binds_opened : List.Forall₂ (fun b image =>
    Image.OpenedFor policy l.inspect h .data b.source (!b.readonly) image)
    (c.bindPaths.filter BindMount.namesImage) binds

/-- The steps towards the images of a new container, one after the other. -/
theorem withImages_steps (hrun : (d.withImages l policy).perform h = (.ok d', h')) :
    ∃ root h₁ choice overlays h₂ bindPaths binds h₃ entered,
      (Image.load policy l.inspect d.config.image d.config.writableImage).perform h =
          (.ok root, h₁) ∧
        (d.config.writableImage = true → root.writable = true ∧ d.config.overlayImages = []) ∧
        LayerChoice.choose
          (layerInputs l policy d.config root (lowerFileSystem h₁ root)) = .ok choice ∧
        requireWritableRoot root d.config.writableImage
          ((d.layered choice.decision).config.sessionLayer = .overlay) = .ok () ∧
        (if (d.layered choice.decision).config.sessionLayer = .overlay then
            overlayImages l policy root (d.layered choice.decision).config
          else pure []).perform (h₁.tellAll choice.notices) = (.ok overlays, h₂) ∧
        (loadBinds l policy d.config.bindPaths).perform h₂ = (.ok (bindPaths, binds), h₃) ∧
        (if root.format = .sandbox then
            ((d.layered choice.decision).onRoot root bindPaths).enterSandbox root
          else pure ((d.layered choice.decision).onRoot root bindPaths)).perform h₃ =
            (.ok entered, h') ∧
        (root :: overlays ++ binds).foldlM addImage entered = .ok d' := by
  unfold withImages at hrun
  obtain ⟨hoverlay, hrun⟩ := Action.perform_refuse_ok.mp hrun
  obtain ⟨root, h₁, hroot, hrun⟩ := Action.perform_bind_ok.mp hrun
  obtain ⟨hwritable, hrun⟩ := Action.perform_refuse_ok.mp hrun
  obtain ⟨d₂, h₂, hlayer, hrun⟩ := Action.perform_bind_ok.mp hrun
  obtain ⟨_, hrequired, hrun⟩ := Action.perform_ofExcept_bind_ok.mp hrun
  obtain ⟨overlays, h₃, hoverlays, hrun⟩ := Action.perform_either_ok.mp hrun
  obtain ⟨⟨bindPaths, binds⟩, h₄, hbinds, hrun⟩ := Action.perform_bind_ok.mp hrun
  obtain ⟨entered, h₅, henter, hrun⟩ := Action.perform_either_ok.mp hrun
  obtain ⟨hadd, rfl⟩ := Action.perform_ofExcept_ok.mp hrun
  obtain ⟨choice, hchoice, rfl, rfl⟩ := withLayer_ok.mp hlayer
  have hwanted : d.config.writableImage = true →
      root.writable = true ∧ d.config.overlayImages = [] := by
    intro hwanted
    exact ⟨by simpa [hwanted] using hwritable, by simpa [hwanted] using hoverlay⟩
  exact ⟨root, h₁, choice, overlays, h₃, bindPaths, binds, h₄, entered, hroot, hwanted, hchoice,
    hrequired, hoverlays, hbinds, henter, hadd⟩

theorem overlays_ok {root : Image} {overlays : List Image}
    (hrun : (if d.config.sessionLayer = .overlay then overlayImages l policy root d.config
      else pure []).perform h = (.ok overlays, h')) :
    Image.LoadsEach policy l.inspect .overlay ((overlaySpecs d.config).map overlayOf)
      overlays h h' := by
  by_cases hkind : d.config.sessionLayer = .overlay
  · rw [if_pos hkind] at hrun
    have hspecs : overlaySpecs d.config = _ := if_pos hkind
    rw [hspecs]
    exact overlayImages_ok hrun
  · rw [if_neg hkind] at hrun
    obtain ⟨rfl, rfl⟩ := Action.perform_pure_ok.mp hrun
    have hspecs : overlaySpecs d.config = [] := if_neg hkind
    rw [hspecs]
    exact .nil _

theorem entersRoot_ok {root : Image}
    (hrun : (if root.format = .sandbox then d.enterSandbox root else pure d).perform h =
      (.ok d', h')) :
    EntersRoot root d d' ∧
      ∃ files, d'.held = d.held ++ files ∧ h.Opened (files.map OpenFile.tableEntry) h' := by
  by_cases hformat : root.format = .sandbox
  · rw [if_pos hformat] at hrun
    exact enterSandbox_ok hformat hrun
  · rw [if_neg hformat] at hrun
    obtain ⟨rfl, rfl⟩ := Action.perform_pure_ok.mp hrun
    exact ⟨.stays hformat, [], (List.append_nil _).symm, .of_same rfl⟩

/-- The runs that the images of a new container are loaded in. -/
theorem withImages_runs (hrun : (d.withImages l policy).perform h = (.ok d', h')) :
    ∃ outcome ns root h₁ overlays h₂ bindPaths binds h₃ entered files,
      (Image.load policy l.inspect d.config.image d.config.writableImage).perform h =
          (.ok root, h₁) ∧
        (d.config.writableImage = true → root.writable = true ∧ d.config.overlayImages = []) ∧
        Image.LoadsEach policy l.inspect .overlay
          ((overlaySpecs (applyLayer d.config outcome)).map overlayOf) overlays
          (h₁.tellAll ns) h₂ ∧
        Image.LoadsEach policy l.inspect .data
          ((d.config.bindPaths.filter BindMount.namesImage).map imageOf) binds h₂ h₃ ∧
        EntersRoot root ((d.layered outcome).onRoot root bindPaths) entered ∧
        entered.held = d.held ++ files ∧ h₃.Opened (files.map OpenFile.tableEntry) h' ∧
        entered.withEntries (root :: overlays ++ binds) = d' := by
  obtain ⟨root, h₁, choice, overlays, h₂, bindPaths, binds, h₃, entered, hroot, hwanted, -, -,
    hoverlays, hbinds, hrun, hadd⟩ := withImages_steps hrun
  obtain ⟨henter, files, hheld, hopened⟩ := entersRoot_ok hrun
  exact ⟨choice.decision, choice.notices, root, h₁, overlays, h₂, bindPaths, binds, h₃,
    entered, files, hroot, hwanted, overlays_ok hoverlays, loadBinds_ok hbinds, henter, hheld,
    hopened, foldlM_addImage_ok hadd⟩

/-- What the images make of the requests that need a layer: the choice that is made for the
root image is applied to them. -/
theorem withImages_layer (hrun : (d.withImages l policy).perform h = (.ok d', h')) :
    ∃ root rest lower choice,
      d'.images = d.images ++ root :: rest ∧
        LayerChoice.choose (layerInputs l policy d.config root lower) = .ok choice ∧
        d'.config.sessionLayer = choice.decision.layer ∧
        d'.config.writableTmpfs = (d.config.writableTmpfs && !choice.decision.disableTmpfs) ∧
        d'.config.overlayImages =
          if choice.decision.dropImages then [] else d.config.overlayImages := by
  obtain ⟨root, h₁, choice, overlays, h₂, bindPaths, binds, h₃, entered, -, -, hchoice, -, -, -,
    hrun, hadd⟩ := withImages_steps hrun
  obtain ⟨hconfig, himages⟩ := (entersRoot_ok hrun).1.same
  obtain rfl := foldlM_addImage_ok hadd
  refine ⟨root, overlays ++ binds, lowerFileSystem h₁ root, choice, ?_, hchoice, ?_, ?_, ?_⟩
  · simp only [withEntries, himages]
    rfl
  all_goals
    simp only [withEntries, hconfig]
    rfl

theorem withImages_ok (hrun : (d.withImages l policy).perform h = (.ok d', h')) :
    ∃ outcome root overlays binds bindPaths entered,
      Stack l policy h d.config outcome root overlays binds ∧
        EntersRoot root ((d.layered outcome).onRoot root bindPaths) entered ∧
        entered.withEntries (root :: overlays ++ binds) = d' := by
  obtain ⟨outcome, ns, root, h₁, overlays, h₂, bindPaths, binds, h₃, entered, files, hroot,
    hwanted, hoverlays, hbinds, henter, -, -, hd⟩ := withImages_runs hrun
  have hlast : h₁.lasting = h.lasting := (Image.quiet_load _ _ _ _).lasting_eq hroot
  have hlast₁ : (h₁.tellAll ns).lasting = h.lasting := hlast
  have hlast₂ : h₂.lasting = h.lasting := hoverlays.lasting_eq.trans hlast₁
  refine ⟨outcome, root, overlays, binds, bindPaths, entered, ?_, henter, hd⟩
  exact
    { root_opened := Image.openedFor_of_load rfl hroot
      root_writable := hwanted
      overlays_opened := List.forall₂_map_left_iff.mp (hoverlays.openedFor hlast₁)
      binds_opened := List.forall₂_map_left_iff.mp (hbinds.openedFor hlast₂) }

/-- Images change nothing about the plan but its descriptors. -/
theorem plan_withImages (hrun : (d.withImages l policy).perform h = (.ok d', h')) :
    d'.plan = { d.plan with
      imageFd := d'.plan.imageFd
      workingDirectoryFd := d'.plan.workingDirectoryFd
      keptDescriptors := d'.plan.keptDescriptors } := by
  obtain ⟨outcome, root, overlays, binds, bindPaths, entered, -, henter, rfl⟩ :=
    withImages_ok hrun
  cases henter <;> rfl

/-- Images change nothing about the process and for whom it is. -/
theorem process_withImages (hrun : (d.withImages l policy).perform h = (.ok d', h')) :
    d'.config.process = d.config.process ∧ d'.plan.targetUid = d.plan.targetUid ∧
      d'.plan.targetGids = d.plan.targetGids := by
  have hplan := plan_withImages hrun
  obtain ⟨outcome, root, overlays, binds, bindPaths, entered, -, henter, rfl⟩ :=
    withImages_ok hrun
  have hprocess : entered.config.process = d.config.process := by
    rw [henter.same.1]
    rfl
  refine ⟨hprocess, ?_, ?_⟩
  · rw [hplan]
  · rw [hplan]

end Draft
end ContainerLaunch
