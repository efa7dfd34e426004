import ContainerLaunch.Proofs.Alike
import ContainerLaunch.Proofs.Launch.Preparation
/-!
# The same launch with other overlays

Two requests that differ only in the overlays that they ask for lead to the same launch,
provided that each overlay of the one is as good as the overlay of the other that stands in
its place: it is opened as the same image, and counts as written if that one does.
-/

namespace ContainerLaunch

open ContainerLaunch.Action

variable {base : Host}

namespace Image

theorem heedless_openFile (p : Path) (writable : Bool) : Heedless base (openFile p writable) := by
  refine heedless_bind (heedless_check _ fun _ _ => rfl) fun inode => ?_
  refine alike_ite (Action.heedless_openFile _ _) ?_
  exact heedless_bind (heedless_check _ fun _ _ => rfl) heedless_openFound

theorem heedless_openFallback (p : Path) (writable : Bool) :
    Heedless base (openFallback p writable) := by
  refine heedless_bind (heedless_outcome (heedless_openFile p writable)) fun r => ?_
  split
  · exact heedless_pure _
  · refine alike_bind (alike_notify _ _) fun _ _ _ => ?_
    exact heedless_bind (heedless_openFile _ _) fun _ => heedless_pure _
  · exact alike_fail _

theorem heedless_ofOpenFile (inspect : SifReader) (file : OpenFile) (writable : Bool) :
    Heedless base (ofOpenFile inspect file writable) := by
  refine alike_ite ?_ (heedless_ofExcept _)
  exact heedless_bind (heedless_observe fun _ _ => rfl) fun _ => heedless_pure _

theorem heedless_load (policy : Policy) (inspect : SifReader) (p : Path) (writable : Bool) :
    Heedless base (load policy inspect p writable) := by
  refine heedless_bind (heedless_openFallback p writable) fun opened => ?_
  refine heedless_bind (heedless_ofOpenFile inspect _ _) fun image => ?_
  refine heedless_bind (heedless_observe fun _ _ => rfl) fun users => ?_
  exact heedless_bind (heedless_ofExcept _) fun _ => heedless_pure _

end Image

namespace Autofs

theorem heedless_pin (points : List Path) (source : Path) : Heedless base (pin points source) := by
  refine heedless_bind (heedless_check _ fun _ _ => rfl) fun resolved => ?_
  refine alike_ite ?_ (heedless_pure _)
  exact heedless_bind (heedless_openFile _ _) fun _ => heedless_pure _

theorem heedless_pinCandidates (points candidates : List Path) :
    Heedless base (pinCandidates points candidates) := by
  refine alike_ite (heedless_pure _) ?_
  induction candidates with
  | nil => exact heedless_pure _
  | cons source rest ih =>
      refine heedless_bind (heedless_outcome (heedless_pin _ _)) fun first => ?_
      refine heedless_bind ih fun more => ?_
      split
      · exact heedless_pure _
      · exact heedless_pure _

end Autofs

namespace FuseMount

theorem heedless_openEach (device : Path) (mounts : List FuseMount) :
    Heedless base (openEach device mounts) := by
  induction mounts with
  | nil => exact heedless_pure _
  | cons mount rest ih =>
      refine heedless_bind (heedless_openFile _ _) fun file => ?_
      exact heedless_bind ih fun more => heedless_pure _

theorem heedless_openAll (device : Path) (mounts : List FuseMount)
    (enabled isSuid fakeroot : Bool) :
    Heedless base (openAll device mounts enabled isSuid fakeroot) := by
  refine alike_ite (heedless_pure _) (alike_refuse ?_)
  exact heedless_bind (heedless_openEach _ _) fun _ => heedless_pure _

end FuseMount

namespace OverlayRequest

/-- An overlay is as good as another one: it is opened as the same image, and counts as
written if that one does. -/
def AsGood (base : Host) (policy : Policy) (inspect : SifReader) (o o' : OverlayRequest) : Prop :=
  Alike base (fun i j => i = j ∧ (o.writable && i.writable) = (o'.writable && j.writable))
    (Image.load policy inspect o.path o.writable) (Image.load policy inspect o'.path o'.writable)

theorem AsGood.refl (policy : Policy) (inspect : SifReader) (o : OverlayRequest) :
    AsGood base policy inspect o o := by
  refine alike_imp (fun i j hsame => ?_) (Image.heedless_load policy inspect o.path o.writable)
  subst hsame
  exact ⟨rfl, rfl⟩

end OverlayRequest

namespace Draft

variable {l : Launcher} {policy : Policy} {d d' : Draft}

/-- A draft in which other overlays are asked for. -/
def withOverlays (d : Draft) (overlays : List String) : Draft :=
  { d with config := { d.config with overlayImages := overlays } }

/-- The texts ask for overlays of which one is as good as the other. -/
def AsGood (base : Host) (policy : Policy) (inspect : SifReader) (text text' : String) : Prop :=
  OverlayRequest.AsGood base policy inspect (.parse text) (.parse text')

/-- Drafts that differ only in the overlays that are asked for, and those are as good. -/
def Differ (base : Host) (policy : Policy) (inspect : SifReader) (d d' : Draft) : Prop :=
  ∃ overlays, List.Forall₂ (AsGood base policy inspect) d.config.overlayImages overlays ∧
    d' = d.withOverlays overlays

section Steps

variable {inspect : SifReader} (hdiffer : Differ base policy inspect d d')

include hdiffer

/-! ## Up to the images -/

theorem alike_withUserInfo (caller : Caller) (useTarget : Bool) :
    Alike base (Differ base policy inspect) (d.withUserInfo caller useTarget)
      (d'.withUserInfo caller useTarget) := by
  obtain ⟨overlays, hasked, rfl⟩ := hdiffer
  refine alike_bind (heedless_observe fun _ _ => rfl) fun users _ husers => ?_
  subst husers
  exact alike_pure ⟨overlays, hasked, rfl⟩

theorem alike_withNamespaces (l : Launcher) (p : Policy) :
    Alike base (Differ base policy inspect) (d.withNamespaces l p) (d'.withNamespaces l p) := by
  obtain ⟨overlays, hasked, rfl⟩ := hdiffer
  refine alike_bind (alike_notifyAll _ _) fun _ _ _ => ?_
  refine alike_bind (heedless_ofExcept _) fun _ _ _ => ?_
  refine alike_observe_bind fun h journal => ?_
  exact alike_bind (heedless_ofExcept _) fun _ _ _ => alike_pure ⟨overlays, hasked, rfl⟩

theorem alike_withCapabilities (files : AdminFiles) (caller : Caller) (enforced targetIds : Bool) :
    Alike base (Differ base policy inspect) (d.withCapabilities files caller enforced targetIds)
      (d'.withCapabilities files caller enforced targetIds) := by
  obtain ⟨overlays, hasked, rfl⟩ := hdiffer
  exact alike_bind (alike_notifyAll _ _) fun _ _ _ => alike_pure ⟨overlays, hasked, rfl⟩

theorem alike_withFakeroot (l : Launcher) (files : AdminFiles) :
    Alike base (Differ base policy inspect) (d.withFakeroot l files) (d'.withFakeroot l files) := by
  obtain ⟨overlays, hasked, rfl⟩ := hdiffer
  refine alike_ite (alike_pure ⟨overlays, hasked, rfl⟩) (alike_refuse ?_)
  refine alike_observe_bind fun h journal => ?_
  refine alike_bind (heedless_ofExcept _) fun maps _ hmaps => ?_
  subst hmaps
  exact alike_pure ⟨overlays, hasked, rfl⟩

theorem alike_withSecurity :
    Alike base (Differ base policy inspect) d.withSecurity d'.withSecurity := by
  obtain ⟨overlays, hasked, rfl⟩ := hdiffer
  refine alike_observe_bind fun h journal => ?_
  refine alike_bind (heedless_ofExcept _) fun profile _ hprofile => ?_
  subst hprofile
  exact alike_pure ⟨overlays, hasked, rfl⟩

theorem differ_withNamespacePlan (p : Policy) (caller : Caller) :
    Differ base policy inspect (d.withNamespacePlan p caller) (d'.withNamespacePlan p caller) := by
  obtain ⟨overlays, hasked, rfl⟩ := hdiffer
  by_cases howns : (d.config.namespaces.has .user && d.config.uidMappings.isEmpty) = true
  · refine ⟨overlays, ?_, ?_⟩
    · simp only [withNamespacePlan, withOwnMaps, howns, if_true]
      exact hasked
    · simp only [withNamespacePlan, withOwnMaps, withOverlays, howns, if_true]
  · refine ⟨overlays, ?_, ?_⟩
    · simp only [withNamespacePlan, withOwnMaps, howns, Bool.false_eq_true, if_false]
      exact hasked
    · simp only [withNamespacePlan, withOwnMaps, withOverlays, howns, Bool.false_eq_true, if_false]

theorem alike_fresh (l : Launcher) (files : AdminFiles) (targetIds : Bool) :
    Alike base (Differ base policy inspect) (d.fresh l files targetIds)
      (d'.fresh l files targetIds) := by
  refine alike_bind (alike_withNamespaces hdiffer l _) fun d₁ d₁' hdiffer => ?_
  refine alike_bind (alike_withCapabilities hdiffer files _ _ _) fun d₂ d₂' hdiffer => ?_
  refine alike_bind (alike_withFakeroot hdiffer l files) fun d₃ d₃' hdiffer => ?_
  exact alike_withSecurity (differ_withNamespacePlan hdiffer _ _)

/-! ## The images -/

theorem layerInputs_eq (l : Launcher) (p : Policy) (root : Image) (lower : Option String) :
    layerInputs l p d'.config root lower = layerInputs l p d.config root lower := by
  obtain ⟨overlays, hasked, rfl⟩ := hdiffer
  have hempty : overlays.isEmpty = d.config.overlayImages.isEmpty := by
    generalize d.config.overlayImages = asked at hasked
    cases hasked <;> rfl
  simp only [layerInputs, withOverlays, hempty]

theorem differ_layered (outcome : LayerOutcome) :
    Differ base policy inspect (d.layered outcome) (d'.layered outcome) := by
  obtain ⟨overlays, hasked, rfl⟩ := hdiffer
  cases hdrop : outcome.dropImages with
  | false =>
      refine ⟨overlays, ?_, ?_⟩
      · simpa only [layered, applyLayer, hdrop, Bool.false_eq_true, if_false] using hasked
      · simp only [layered, applyLayer, hdrop, Bool.false_eq_true, if_false, withOverlays]
  | true =>
      refine ⟨[], ?_, ?_⟩
      · simp only [layered, applyLayer, hdrop, if_true]
        exact .nil
      · simp only [layered, applyLayer, hdrop, if_true, withOverlays]

theorem alike_withLayer (l : Launcher) (p : Policy) (root : Image) :
    Alike base (Differ base policy inspect) (d.withLayer l p root) (d'.withLayer l p root) := by
  refine alike_observe_bind fun h journal => ?_
  simp only [layerInputs_eq hdiffer]
  refine alike_bind (heedless_ofExcept _) fun choice _ hchoice => ?_
  subst hchoice
  exact alike_bind (alike_notifyAll _ _) fun _ _ _ => alike_pure (differ_layered hdiffer _)

end Steps

/-- Overlays that are as good are opened as the same images, and the same of them count as
written. -/
theorem alike_loadOverlays {requests requests' : List OverlayRequest}
    (hgood : List.Forall₂ (OverlayRequest.AsGood base policy l.inspect) requests requests')
    (written : Option Path) :
    Alike base (· = ·) (loadOverlays l policy written requests)
      (loadOverlays l policy written requests') := by
  induction hgood generalizing written with
  | nil => exact heedless_pure _
  | cons hfirst hrest ih =>
      refine alike_bind hfirst fun image _ hsame => ?_
      obtain ⟨rfl, hwritten⟩ := hsame
      simp only [hwritten]
      refine alike_ite ?_ (alike_bind (ih written) fun more _ hmore => ?_)
      · cases written with
        | some existing => exact alike_fail _
        | none =>
            refine alike_bind (ih _) fun more _ hmore => ?_
            subst hmore
            exact heedless_pure _
      · subst hmore
        exact heedless_pure _

/-! ### What is kept -/

/-- A step that does the same whatever overlays are asked for, and leaves them. -/
def Indifferent (f : Draft → Except Error Draft) : Prop :=
  ∀ d overlays, f (d.withOverlays overlays) = (f d).map fun d => d.withOverlays overlays

/-- A step that does the same whatever overlays are asked for leaves them in particular. -/
theorem Indifferent.overlayImages_eq {f : Draft → Except Error Draft} (hf : Indifferent f)
    (hstep : f d = .ok d') : d'.config.overlayImages = d.config.overlayImages := by
  have hsame := hf d d.config.overlayImages
  rw [show d.withOverlays d.config.overlayImages = d from rfl, hstep] at hsame
  rw [Except.ok.inj hsame]
  rfl

theorem alike_ofIndifferent {inspect : SifReader} {f : Draft → Except Error Draft}
    (hf : Indifferent f) (hdiffer : Differ base policy inspect d d') :
    Alike base (Differ base policy inspect) (Action.ofExcept (f d)) (Action.ofExcept (f d')) := by
  obtain ⟨overlays, hasked, rfl⟩ := hdiffer
  rw [hf d overlays]
  refine alike_ofExcept (fun d₁ hstep => ?_) fun e hstep => ?_
  · rw [hstep]
    exact ⟨d₁.withOverlays overlays, rfl, overlays, hf.overlayImages_eq hstep ▸ hasked, rfl⟩
  · rw [hstep]
    rfl

theorem indifferent_keep (fd : Int32) : Indifferent fun d => d.keep fd := by
  intro d overlays
  simp only [keep, withOverlays]
  cases d.plan.keep fd <;> rfl

theorem indifferent_keepFile (file : OpenFile) : Indifferent fun d => d.keepFile file := by
  intro d overlays
  simp only [keepFile, indifferent_keep _ d overlays]
  cases d.keep (descriptor file) <;> rfl

theorem indifferent_addImage (image : Image) : Indifferent fun d => d.addImage image := by
  intro d overlays
  simp only [addImage, indifferent_keep _ d overlays]
  cases d.keep (descriptor image.file) <;> rfl

theorem indifferent_foldlM {α : Type} {f : Draft → α → Except Error Draft}
    (hf : ∀ x, Indifferent fun d => f d x) (xs : List α) : Indifferent fun d => xs.foldlM f d := by
  induction xs with
  | nil => exact fun _ _ => rfl
  | cons x rest ih =>
      intro d overlays
      simp only [List.foldlM_cons, hf x d overlays]
      cases f d x with
      | error e => rfl
      | ok d₁ => exact ih d₁ overlays

theorem indifferent_keepFiles (files : List OpenFile) : Indifferent fun d => d.keepFiles files :=
  indifferent_foldlM indifferent_keepFile files

/-! ### The whole stack -/

theorem heedless_loadBind (l : Launcher) (policy : Policy) (b : BindMount) :
    Heedless base (loadBind l policy b) := by
  refine heedless_bind (Image.heedless_load _ _ _ _) fun image => ?_
  have hrest : Heedless base (do
      Action.ofExcept (checkPartition b { image with usage := .data })
      return ({ b with
          source := Image.source { image with usage := .data }
          readonly := b.readonly || !image.writable }, { image with usage := .data })) :=
    heedless_bind (heedless_ofExcept _) fun _ => heedless_pure _
  exact alike_ite (alike_bind (alike_notify _ _) fun _ _ _ => hrest) hrest

theorem heedless_loadBinds (l : Launcher) (policy : Policy) (bs : List BindMount) :
    Heedless base (loadBinds l policy bs) := by
  induction bs with
  | nil => exact heedless_pure _
  | cons b rest ih =>
      refine alike_ite ?_ (heedless_bind ih fun _ => heedless_pure _)
      refine heedless_bind (heedless_loadBind _ _ _) fun first => ?_
      exact heedless_bind ih fun _ => heedless_pure _

section Steps

variable (hdiffer : Differ base policy l.inspect d d')

include hdiffer

theorem alike_overlayImages (root : Image) :
    Alike base (· = ·) (overlayImages l policy root d.config)
      (overlayImages l policy root d'.config) := by
  obtain ⟨overlays, hasked, rfl⟩ := hdiffer
  have hgood : List.Forall₂ (OverlayRequest.AsGood base policy l.inspect)
      (d.config.overlayImages.map OverlayRequest.parse) (overlays.map OverlayRequest.parse) := by
    rw [List.forall₂_map_left_iff, List.forall₂_map_right_iff]
    exact hasked
  refine alike_bind (alike_loadOverlays hgood _) fun opened _ hopened => ?_
  subst hopened
  simp only [withOverlays]
  split
  · exact alike_fail _
  · exact heedless_pure _

theorem differ_onRoot (root : Image) (bindPaths : List BindMount) :
    Differ base policy l.inspect (d.onRoot root bindPaths) (d'.onRoot root bindPaths) := by
  obtain ⟨overlays, hasked, rfl⟩ := hdiffer
  exact ⟨overlays, hasked, rfl⟩

theorem alike_enterSandbox (root : Image) :
    Alike base (Differ base policy l.inspect) (d.enterSandbox root) (d'.enterSandbox root) := by
  have hfuse : d'.config.imageFuse = d.config.imageFuse := by
    obtain ⟨overlays, -, rfl⟩ := hdiffer
    rfl
  unfold enterSandbox
  simp only [hfuse]
  refine alike_refuse (alike_ite ?_ (alike_pure ?_))
  · refine alike_bind (Action.heedless_openFile _ _) fun directory _ hdirectory => ?_
    subst hdirectory
    refine alike_bind (alike_ofIndifferent (indifferent_keepFile _) hdiffer)
      fun d₁ d₁' hdiffer => ?_
    obtain ⟨overlays, hasked, rfl⟩ := hdiffer
    exact alike_pure ⟨overlays, hasked, rfl⟩
  · obtain ⟨overlays, hasked, rfl⟩ := hdiffer
    exact ⟨overlays, hasked, rfl⟩

theorem alike_withImages : Alike base (Differ base policy l.inspect) (d.withImages l policy)
    (d'.withImages l policy) := by
  have hconfig : d'.config.writableImage = d.config.writableImage ∧
      d'.config.image = d.config.image ∧
      d'.config.overlayImages.isEmpty = d.config.overlayImages.isEmpty := by
    obtain ⟨overlays, hasked, rfl⟩ := hdiffer
    refine ⟨rfl, rfl, ?_⟩
    change overlays.isEmpty = _
    generalize d.config.overlayImages = asked at hasked
    cases hasked <;> rfl
  obtain ⟨hwritable, himage, hempty⟩ := hconfig
  unfold withImages
  simp only [hwritable, himage, hempty]
  refine alike_refuse (alike_bind (Image.heedless_load _ _ _ _) fun root _ hroot => ?_)
  subst hroot
  refine alike_refuse (alike_bind (alike_withLayer hdiffer l policy root) fun d₁ d₁' hdiffer => ?_)
  have hdiffers := hdiffer
  obtain ⟨requests, -, rfl⟩ := hdiffers
  refine alike_bind (heedless_ofExcept _) fun _ _ _ => ?_
  refine alike_either (alike_overlayImages hdiffer root) (heedless_pure _)
    fun overlays _ hsame => ?_
  subst hsame
  refine alike_bind (heedless_loadBinds _ _ _) fun binds _ hsame => ?_
  subst hsame
  refine alike_either (R := Differ base policy l.inspect)
    (alike_enterSandbox (differ_onRoot hdiffer root binds.1) root)
    (alike_pure (differ_onRoot hdiffer root binds.1)) fun d₂ d₂' hdiffer => ?_
  exact alike_ofIndifferent (indifferent_foldlM indifferent_addImage _) hdiffer

theorem alike_withAutofs (l₁ : Launcher) (p : Policy) :
    Alike base (Differ base policy l.inspect) (d.withAutofs l₁ p) (d'.withAutofs l₁ p) := by
  refine alike_observe_bind fun h journal => ?_
  have hpoints : Autofs.points { h with journal := journal } l₁.facts.mountTable =
      Autofs.points h l₁.facts.mountTable := rfl
  have hcandidates : autofsCandidates p d'.config = autofsCandidates p d.config := by
    obtain ⟨overlays, -, rfl⟩ := hdiffer
    rfl
  simp only [hpoints, hcandidates]
  cases Autofs.points h l₁.facts.mountTable with
  | error e => exact alike_pure hdiffer
  | ok points =>
      refine alike_bind (Autofs.heedless_pinCandidates _ _) fun pinned _ hsame => ?_
      subst hsame
      exact alike_ofIndifferent (indifferent_keepFiles _) hdiffer

end Steps

end Draft

/-- A launch for which other overlays are recorded. -/
def ReadyLaunch.withOverlays (r : ReadyLaunch) (overlays : List String) : ReadyLaunch :=
  { r with config := { r.config with overlayImages := overlays } }

theorem Draft.forTarget_withOverlays (d : Draft) (overlays : List String) (caller : Caller) :
    (d.withOverlays overlays).forTarget caller = (d.forTarget caller).withOverlays overlays := by
  have hsame : asksForTarget (d.withOverlays overlays).config caller =
      asksForTarget d.config caller := rfl
  simp only [forTarget, hsame]
  split
  · rfl
  · rfl

namespace Launcher

variable {l : Launcher} {policy : Policy} {d d' : Draft} {c : LaunchConfig} {files : AdminFiles}

section Steps

variable (hdiffer : Draft.Differ base policy l.inspect d d')

include hdiffer

theorem alike_draftFresh (files : AdminFiles) (hpolicy : files.policy = policy) (targetIds : Bool) :
    Alike base (Draft.Differ base policy l.inspect) (l.draftFresh files targetIds d)
      (l.draftFresh files targetIds d') := by
  subst hpolicy
  refine alike_bind (Draft.alike_withUserInfo hdiffer _ _) fun d₁ d₁' hdiffer => ?_
  refine alike_bind (Draft.alike_fresh hdiffer l files _) fun d₂ d₂' hdiffer => ?_
  refine alike_bind (Draft.alike_withImages hdiffer) fun d₃ d₃' hdiffer => ?_
  exact Draft.alike_withAutofs hdiffer l _

theorem alike_withFuse (p : Policy) :
    Alike base (Draft.Differ base policy l.inspect) (l.withFuse p (l.settle d))
      (l.withFuse p (l.settle d')) := by
  obtain ⟨overlays, hasked, rfl⟩ := hdiffer
  refine alike_bind (FuseMount.heedless_openAll _ _ _ _ _) fun handles _ hsame => ?_
  subst hsame
  exact Draft.alike_ofIndifferent (Draft.indifferent_keepFiles _) ⟨overlays, hasked, rfl⟩

theorem alike_finish :
    Alike base (fun r r' => ∃ overlays, r' = r.withOverlays overlays) (finish d) (finish d') := by
  refine alike_bind heedless_socketPair fun ends _ hsame => ?_
  subst hsame
  refine alike_bind (Draft.alike_ofIndifferent (Draft.indifferent_keep _) hdiffer)
    fun d₁ d₁' hdiffer => ?_
  refine alike_bind (Draft.alike_ofIndifferent (Draft.indifferent_keep _) hdiffer)
    fun d₂ d₂' hdiffer => ?_
  obtain ⟨overlays, -, rfl⟩ := hdiffer
  exact alike_pure ⟨overlays, rfl⟩

end Steps

/-- The draft of a request with other overlays is opened as the draft of the request. -/
theorem opening_withOverlays (l : Launcher) (c : LaunchConfig) (h : Host) (overlays : List String) :
    opening l { c with overlayImages := overlays } h = (opening l c h).withOverlays overlays :=
  ((Draft.start c).inDirectory (Draft.directoryOf c h)).forTarget_withOverlays overlays
    l.facts.caller

theorem prepareWith_endsAlike {h : Host} {overlays : List String} (hfresh : c.instanceJoin = none)
    (hgood : List.Forall₂ (Draft.AsGood h files.policy l.inspect) c.overlayImages overlays) :
    EndsAlike h (fun r r' => ∃ overlays, r' = r.withOverlays overlays)
      ((l.prepareWith files c).perform h)
      ((l.prepareWith files { c with overlayImages := overlays }).perform h) := by
  rw [perform_prepareWith, perform_prepareWith]
  by_cases hargs : c.process.args.isEmpty = true
  · rw [if_pos hargs, if_pos (show ({ c with overlayImages := overlays } :
      LaunchConfig).process.args.isEmpty = true from hargs)]
    exact .error ⟨rfl, rfl, List.prefix_rfl⟩
  · rw [if_neg hargs, if_neg (show ¬ ({ c with overlayImages := overlays } :
      LaunchConfig).process.args.isEmpty = true from hargs)]
    have hdiffer : Draft.Differ h files.policy l.inspect (opening l c h)
        (opening l { c with overlayImages := overlays } h) := by
      refine ⟨overlays, ?_, opening_withOverlays l c h overlays⟩
      rw [opening_config]
      exact hgood
    rw [container_eq_draftFresh (by rw [hfresh]; rfl), container_eq_draftFresh (by rw [hfresh]; rfl)]
    refine alike_bind (alike_draftFresh hdiffer files rfl _) (fun d d' hdiffer => ?_) _ _
      ⟨rfl, rfl, List.prefix_rfl⟩
    exact alike_bind (alike_withFuse hdiffer _) fun _ _ hdiffer => alike_finish hdiffer

/-- A new container comes out the same for other overlays that are as good, in success and
in failure, but for the overlays that are recorded. -/
theorem prepare_withOverlays {h : Host} {overlays : List String} (hfresh : c.instanceJoin = none)
    (hgood : ∀ files, l.loadPolicy c h = .ok files →
      List.Forall₂ (Draft.AsGood h files.policy l.inspect) c.overlayImages overlays) :
    ((l.prepare { c with overlayImages := overlays }).perform h).1.map (fun r => r.withOverlays []) =
      ((l.prepare c).perform h).1.map fun r => r.withOverlays [] := by
  have hsame : l.loadPolicy { c with overlayImages := overlays } h = l.loadPolicy c h := rfl
  cases hfiles : l.loadPolicy c h with
  | error e =>
      rw [perform_prepare_of_loadPolicy_error hfiles,
        perform_prepare_of_loadPolicy_error (hsame.trans hfiles)]
  | ok files =>
      rw [result_of_loadPolicy_ok hfiles, result_of_loadPolicy_ok (hsame.trans hfiles)]
      have hends := prepareWith_endsAlike hfresh (hgood files hfiles)
      generalize (l.prepareWith files c).perform h = first at hends ⊢
      generalize (l.prepareWith files _).perform h = second at hends ⊢
      cases hends with
      | ok hrelated _ =>
          obtain ⟨requests, rfl⟩ := hrelated
          rfl
      | error _ => rfl

end Launcher
end ContainerLaunch
