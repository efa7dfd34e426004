import ContainerLaunch.Proofs.ImageList
import ContainerLaunch.Proofs.Launch.Planned
import ContainerLaunch.Proofs.Layers
/-!
# Overlay requests that are handed on

The next stage is told which overlay images lie over the root and whether there is a
writable tmpfs.  Both go with an overlay layer, and a request that its layer cannot serve
is refused or taken out of the configuration.  It is handed on all the same where the
choice of the layer overlooks it, and only there.
-/

namespace ContainerLaunch

namespace ReadyLaunch

/-- The overlay images of a launch lie in an overlay layer, and each of them was opened, in
order. -/
structure OverlaysOpened (r : ReadyLaunch) (policy : Policy) (inspect : SifReader) (h : Host) :
    Prop where
  layer_eq : r.config.sessionLayer = .overlay
  opened : List.Forall₂ (fun spec image =>
      Image.OpenedFor policy inspect h .overlay spec.path spec.writable image)
    (r.config.overlayImages.map OverlayRequest.parse)
    (r.images.filter fun image => image.usage = .overlay)

/-- The overlay images that are handed on, if there are any, are open in their layer. -/
def ServesImages (r : ReadyLaunch) (policy : Policy) (inspect : SifReader) (h : Host) : Prop :=
  r.config.overlayImages ≠ [] → r.OverlaysOpened policy inspect h

/-- A writable tmpfs that is handed on lies in an overlay layer. -/
def ServesTmpfs (r : ReadyLaunch) : Prop :=
  r.config.writableTmpfs = true → r.config.sessionLayer = .overlay

end ReadyLaunch

namespace Launcher

variable {l : Launcher} {c : LaunchConfig} {h h' : Host} {r : ReadyLaunch}

/-! ## The choice -/

/-- What the choice of the layer of a launch depends on.  What lies below the root image
is left out; it decides only which requests are cleared. -/
def layerConditions (l : Launcher) (policy : Policy) (c : LaunchConfig) (r : ReadyLaunch)
    (root : Image) : LayerConditions :=
  Draft.layerInputs l policy { c with namespaces := r.config.namespaces } root none

/-- Up to its images a launch leaves the requests that need a layer as they are. -/
theorem freshWith_layerRequests (l : Launcher) (c : LaunchConfig) (h : Host)
    (user : ContainerUser) (files : AdminFiles) (targetIds : Bool)
    (maps : Option SubordinateMaps) (seccomp : Option Json) :
    let d := ((opening l c h).withUser user).freshWith l files targetIds maps seccomp
    d.config.writableImage = c.writableImage ∧ d.config.overlayImages = c.overlayImages ∧
      d.config.writableTmpfs = c.writableTmpfs := by
  refine ⟨?_, ?_, ?_⟩
  all_goals
    rw [Draft.freshWith_config]
    simp only [Draft.withUser]
    rw [opening_config]

/-- The root image comes first among the images of a new container, and the layer that is
chosen over it decides what becomes of the requests. -/
theorem fresh_layer (hfresh : c.instanceJoin = none)
    (hrun : (l.prepare c).perform h = (.ok r, h')) :
    ∃ files root lower choice, l.loadPolicy c h = .ok files ∧ r.images.head? = some root ∧
      LayerChoice.choose
          { l.layerConditions files.policy c r root with lowerIncompatible := lower } =
        .ok choice ∧
      r.config.sessionLayer = choice.decision.layer ∧
      r.config.writableTmpfs = (c.writableTmpfs && !choice.decision.disableTmpfs) ∧
      r.config.overlayImages = if choice.decision.dropImages then [] else c.overlayImages := by
  obtain ⟨files, user, d₁, h₁, d₂, h₂, pinned, handles, ends, hfiles, hmade, himages, rfl⟩ :=
    prepare_fresh_ok hfresh hrun
  obtain ⟨-, -, maps, seccomp, -, -, rfl, -⟩ := Draft.fresh_ok.mp hmade
  obtain ⟨root, rest, lower, choice, hopened, hchoice, hlayer, htmpfs, hoverlays⟩ :=
    Draft.withImages_layer himages
  obtain ⟨hnone, -⟩ := freshWith_opening l c h user files
    (Draft.asksForTarget c l.facts.caller) maps seccomp
  obtain ⟨hwritable, hasked, hwanted⟩ := freshWith_layerRequests l c h user files
    (Draft.asksForTarget c l.facts.caller) maps seccomp
  have hspaces := (Draft.sameIsolation_of_withImages himages).namespaces
  rw [hnone, List.nil_append] at hopened
  rw [hwanted] at htmpfs
  rw [hasked] at hoverlays
  refine ⟨files, root, lower, choice, hfiles, ?_, ?_, hlayer, htmpfs, hoverlays⟩
  · rw [closed_images]
    exact congrArg List.head? hopened
  · simp only [Draft.layerInputs, hwritable, hasked, hwanted, ← hspaces] at hchoice
    exact hchoice

/-! ## The images of an overlay layer -/

/-- Where a new container has an overlay layer, its images of that use are the ones that
its final configuration asks for, in order. -/
theorem overlays_of_layer (hfresh : c.instanceJoin = none)
    (hrun : (l.prepare c).perform h = (.ok r, h')) (hlayer : r.config.sessionLayer = .overlay) :
    ∃ files, l.loadPolicy c h = .ok files ∧ r.OverlaysOpened files.policy l.inspect h := by
  obtain ⟨-, files, root, overlays, binds, hfiles, himages, hroot, hoverlays, hbinds⟩ :=
    fresh_imageList hfresh hrun
  refine ⟨files, hfiles, hlayer, ?_⟩
  have hfilter : (r.images.filter fun image => image.usage = .overlay) = overlays := by
    rw [himages, List.filter_append, List.filter_cons_of_neg (by simp [hroot.usage_eq]),
      Image.filter_usage_eq hoverlays, Image.filter_usage_eq hbinds, if_pos rfl,
      if_neg (by decide), List.append_nil]
  rw [hfilter]
  have hspecs : Draft.overlaySpecs r.config = _ := if_pos hlayer
  rw [← hspecs]
  exact hoverlays

/-! ## What is served -/

/-- A new container that is ready serves the overlay images that it hands on if and only if
the choice of its layer did not overlook the request for them, and so for a writable
tmpfs. -/
theorem overlay_requests_served_iff (hfresh : c.instanceJoin = none)
    (hrun : (l.prepare c).perform h = (.ok r, h')) :
    ∃ files root, l.loadPolicy c h = .ok files ∧ r.images.head? = some root ∧
      (r.ServesImages files.policy l.inspect h ↔
        ¬ (l.layerConditions files.policy c r root).OverlooksImages) ∧
      (r.ServesTmpfs ↔ ¬ (l.layerConditions files.policy c r root).OverlooksTmpfs) := by
  obtain ⟨files, root, lower, choice, hfiles, hroot, hchoice, hlayer, htmpfs, hoverlays⟩ :=
    fresh_layer hfresh hrun
  refine ⟨files, root, hfiles, hroot, ?_, ?_⟩
  · refine Iff.trans ?_ ((LayerChoice.images_served_iff hchoice).trans Iff.rfl)
    have hkept : r.config.overlayImages ≠ [] ↔
        (!c.overlayImages.isEmpty) = true ∧ choice.decision.dropImages = false := by
      rw [hoverlays]
      cases choice.decision.dropImages <;> simp
    constructor
    · intro hserves hasked hdrop
      exact hlayer ▸ (hserves (hkept.mpr ⟨hasked, hdrop⟩)).layer_eq
    · intro hserved hne
      obtain ⟨hasked, hdrop⟩ := hkept.mp hne
      have hover : r.config.sessionLayer = .overlay := hlayer.trans (hserved hasked hdrop)
      obtain ⟨files', hfiles', hopened⟩ := overlays_of_layer hfresh hrun hover
      obtain rfl : files = files' := Except.ok.inj (hfiles.symm.trans hfiles')
      exact hopened
  · refine Iff.trans ?_ ((LayerChoice.tmpfs_served_iff hchoice).trans Iff.rfl)
    have hkept : r.config.writableTmpfs = true ↔
        c.writableTmpfs = true ∧ choice.decision.disableTmpfs = false := by
      rw [htmpfs, Bool.and_eq_true, Bool.not_eq_true']
    constructor
    · intro hserves hasked hdisable
      exact hlayer ▸ hserves (hkept.mpr ⟨hasked, hdisable⟩)
    · intro hserved hwanted
      obtain ⟨hasked, hdisable⟩ := hkept.mp hwanted
      exact hlayer.trans (hserved hasked hdisable)

/-! ## An overlay that is served, and one that is overlooked -/

/-- A host with two sandboxes, whose kernel knows overlays. -/
def overlayHost (kernel : String) : Host :=
  { Host.plain ⟨1000, 1000, 1000, []⟩
      [["etc"], ["etc", "stagehand"], ["image"], ["upper"], ["proc"]]
      [(["etc", "stagehand", "stagehand.yaml"], ""),
        (["proc", "filesystems"], "nodev\toverlay\n")] with
    kernel := kernel }

/-- A request for an overlay in a user namespace. -/
def overlayInUserNamespace : String :=
  "\x7b\"image\":\"/image\",\"process\":\x7b\"args\":[\"sh\"]\x7d," ++
    "\"namespaces\":[\x7b\"type\":\"user\"\x7d],\"overlayImages\":[\"/upper:ro\"]\x7d"

theorem prepare_overlayInUserNamespace :
    ∃ c r h', LaunchConfig.parse overlayInUserNamespace = .ok c ∧ c.instanceJoin = none ∧
      ((onHost (overlayHost "6.1.0") false).prepare c).perform (overlayHost "6.1.0") =
        (.ok r, h') ∧
      r.config.overlayImages = ["/upper:ro"] ∧ r.config.sessionLayer = .overlay ∧
      r.images.map Image.usage = [.root, .overlay] := by
  obtain ⟨c, hparse, hc⟩ : ∃ c, LaunchConfig.parse overlayInUserNamespace = .ok c ∧
      (c.instanceJoin, (((onHost (overlayHost "6.1.0") false).prepare c).perform
        (overlayHost "6.1.0")).1.toOption.map fun r =>
          (r.config.overlayImages, r.config.sessionLayer, r.images.map Image.usage)) =
      (none, some (["/upper:ro"], .overlay, [.root, .overlay])) :=
    Error.exists_ok_of_map (by decide +kernel)
  obtain ⟨hfresh, hready⟩ := Prod.mk.inj hc
  obtain ⟨r, h', hrun, hr⟩ := Action.exists_perform_ok hready
  simp only [Prod.mk.injEq] at hr
  exact ⟨c, r, h', hparse, hfresh, hrun, hr⟩

/-- The kernel mounts overlays in user namespaces, so nothing is overlooked. -/
theorem overlay_requests_served_iff_overlayInUserNamespace :
    ∃ c r h' files root, LaunchConfig.parse overlayInUserNamespace = .ok c ∧
      c.instanceJoin = none ∧
      ((onHost (overlayHost "6.1.0") false).prepare c).perform (overlayHost "6.1.0") =
        (.ok r, h') ∧
      (onHost (overlayHost "6.1.0") false).loadPolicy c (overlayHost "6.1.0") = .ok files ∧
      r.images.head? = some root ∧ r.config.overlayImages ≠ [] ∧
      r.ServesImages files.policy (onHost (overlayHost "6.1.0") false).inspect
        (overlayHost "6.1.0") ∧
      ¬ ((onHost (overlayHost "6.1.0") false).layerConditions files.policy c r
        root).OverlooksImages := by
  obtain ⟨c, r, h', hparse, hfresh, hrun, hasked, hlayer, -⟩ := prepare_overlayInUserNamespace
  obtain ⟨files, root, hfiles, hroot, himages, -⟩ := overlay_requests_served_iff hfresh hrun
  obtain ⟨files', hfiles', hopened⟩ := overlays_of_layer hfresh hrun hlayer
  obtain rfl : files = files' := Except.ok.inj (hfiles.symm.trans hfiles')
  have hserves : r.ServesImages files.policy (onHost (overlayHost "6.1.0") false).inspect
      (overlayHost "6.1.0") := fun _ => hopened
  refine ⟨c, r, h', files, root, hparse, hfresh, hrun, hfiles, hroot, ?_, hserves,
    himages.mp hserves⟩
  rw [hasked]
  decide

/-- A request for an overlay that is not even there, in a user namespace. -/
def missingOverlay : String :=
  "\x7b\"image\":\"/image\",\"process\":\x7b\"args\":[\"sh\"]\x7d," ++
    "\"namespaces\":[\x7b\"type\":\"user\"\x7d],\"overlayImages\":[\"/missing\"]\x7d"

/-- The kernel does not mount overlays in user namespaces: the launch gets an underlay, and
hands on an overlay image that nothing has opened. -/
theorem overlay_request_lost :
    ∃ c r h', LaunchConfig.parse missingOverlay = .ok c ∧ c.instanceJoin = none ∧
      ((onHost (overlayHost "5.10.0") false).prepare c).perform (overlayHost "5.10.0") =
        (.ok r, h') ∧
      r.config.overlayImages ≠ [] ∧ r.config.sessionLayer ≠ .overlay ∧
      (r.images.filter fun image => image.usage = .overlay) = [] := by
  obtain ⟨c, hparse, hc⟩ : ∃ c, LaunchConfig.parse missingOverlay = .ok c ∧
      (c.instanceJoin, (((onHost (overlayHost "5.10.0") false).prepare c).perform
        (overlayHost "5.10.0")).1.toOption.map fun r =>
          (r.config.overlayImages, r.config.sessionLayer,
            r.images.filter fun image => image.usage = .overlay)) =
      (none, some (["/missing"], .underlay, [])) :=
    Error.exists_ok_of_map (by decide +kernel)
  obtain ⟨hfresh, hready⟩ := Prod.mk.inj hc
  obtain ⟨r, h', hrun, hr⟩ := Action.exists_perform_ok hready
  simp only [Prod.mk.injEq] at hr
  obtain ⟨hasked, hlayer, hnone⟩ := hr
  refine ⟨c, r, h', hparse, hfresh, hrun, ?_, ?_, hnone⟩
  · rw [hasked]
    decide
  · rw [hlayer]
    decide

end Launcher
end ContainerLaunch
