import ContainerLaunch.Layer.Select
import ContainerLaunch.Proofs.Actions
/-!
# Requests and layers

Which rule chooses the session layer, and what the choice makes of the requests for
overlay images and for a writable tmpfs.  Only an overlay serves them.  Where the choice
is another layer they should be cleared, and what the choice overlooks instead is stated
exactly.
-/

namespace ContainerLaunch

namespace LayerConditions

/-- The container has a user namespace in which no overlay can be mounted or may be. -/
def IsRootless (i : LayerConditions) : Prop :=
  i.userNamespace = true ∧ (i.enableOverlay.isEnabled = false ∨ i.rootlessOverlay = false)

/-- Overlays are known to the kernel and allowed, and nothing else stands against them. -/
def AllowsOverlay (i : LayerConditions) : Prop :=
  ¬ i.IsRootless ∧ i.kernelOverlay = true ∧ i.enableOverlay.isEnabled = true

/-- Overlay images are asked for where there is no overlay in the user namespace. -/
def OverlooksImages (i : LayerConditions) : Prop :=
  i.overlayImages = true ∧ i.IsRootless

/-- A writable tmpfs is asked for where the choice falls on no layer at all: without an
overlay in the user namespace, because underlays are switched off or the image is to be
written itself; and with one, because the image is to be written itself and does not bring
the overlay for it. -/
def OverlooksTmpfs (i : LayerConditions) : Prop :=
  i.writableTmpfs = true ∧
    (i.IsRootless ∧ (i.enableUnderlay = false ∨ i.writableImage = true) ∨
      i.AllowsOverlay ∧ i.writableImage = true ∧ i.sifExt3Overlay = false)

end LayerConditions

namespace LayerChoice

variable {i : LayerConditions} {choice : LayerChoice}

/-! ## The rules -/

/-- The rule that decides. -/
inductive DecidedBy (i : LayerConditions) : LayerChoice → Prop
  | rootless (hrootless : i.IsRootless) : DecidedBy i (rootless i)
  | overlay (hallows : i.AllowsOverlay) : DecidedBy i (overlay i)
  | withoutOverlay (hnot : ¬ i.IsRootless) (hnone : ¬ i.AllowsOverlay)
      (himages : i.overlayImages = false) (htmpfs : i.writableTmpfs = false) :
      DecidedBy i (withoutOverlay i)

theorem refusedByPolicy_ok :
    refusedByPolicy i = .ok () ↔ i.overlayImages = false ∧ i.writableTmpfs = false := by
  unfold refusedByPolicy
  cases i.overlayImages <;> cases i.writableTmpfs <;> simp

theorem refusedByKernel_ok :
    refusedByKernel i = .ok () ↔ i.overlayImages = false ∧ i.writableTmpfs = false := by
  unfold refusedByKernel
  cases i.overlayImages <;> cases i.writableTmpfs <;> simp

/-- A choice is made by one of three rules, and never where an image is to be written
below overlay images. -/
theorem decidedBy_of_choose (hchoose : choose i = .ok choice) :
    (i.writableImage = true → i.overlayImages = false) ∧ DecidedBy i choice := by
  unfold choose at hchoose
  split at hchoose
  · cases hchoose
  next hboth =>
  refine ⟨by simpa using hboth, ?_⟩
  split at hchoose
  · next hrootless =>
    cases hchoose
    exact .rootless (by simpa [LayerConditions.IsRootless] using hrootless)
  next hnot =>
  have hnot : ¬ i.IsRootless := by simpa [LayerConditions.IsRootless] using hnot
  split at hchoose
  · next hallows =>
    cases hchoose
    exact .overlay ⟨hnot, by simpa using hallows⟩
  next hnone =>
  have hnone : ¬ i.AllowsOverlay := fun hallows => hnone (by simpa using hallows.2)
  have hrefused : (i.overlayImages = false ∧ i.writableTmpfs = false) ∧
      withoutOverlay i = choice := by
    dsimp only at hchoose
    split at hchoose
    · obtain ⟨_, hrefused, hdone⟩ := Error.bind_eq_ok.mp hchoose
      exact ⟨refusedByPolicy_ok.mp hrefused, Except.ok.inj hdone⟩
    · obtain ⟨_, hrefused, hdone⟩ := Error.bind_eq_ok.mp hchoose
      exact ⟨refusedByKernel_ok.mp hrefused, Except.ok.inj hdone⟩
  obtain ⟨⟨himages, htmpfs⟩, rfl⟩ := hrefused
  exact .withoutOverlay hnot hnone himages htmpfs

/-! ## What becomes of the requests -/

/-- Overlay images that are not cleared have an overlay to lie in, unless they are
overlooked. -/
theorem images_served_iff (hchoose : choose i = .ok choice) :
    (i.overlayImages = true → choice.decision.dropImages = false →
      choice.decision.layer = .overlay) ↔ ¬ i.OverlooksImages := by
  obtain ⟨hwritable, hdecided⟩ := decidedBy_of_choose hchoose
  cases hdecided with
  | rootless hrootless =>
      have hkept : (rootless i).decision.dropImages = false ∧
          (rootless i).decision.layer ≠ .overlay := by
        unfold rootless underlay
        split
        · exact ⟨rfl, by decide⟩
        · split <;> exact ⟨rfl, by decide⟩
      simp [LayerConditions.OverlooksImages, hrootless, hkept.1, hkept.2]
  | overlay hallows =>
      refine iff_of_true (fun himages hkept => ?_) fun hlost => hallows.1 hlost.2
      have hread : i.writableImage = false := by
        cases hwrite : i.writableImage with
        | false => rfl
        | true => rw [hwritable hwrite] at himages; cases himages
      cases hlower : i.lowerIncompatible with
      | none => simp [overlay, hread, hlower, unconditional]
      | some reason => simp [overlay, hread, hlower, fallback, himages] at hkept
  | withoutOverlay hnot _ himages _ =>
      simp [LayerConditions.OverlooksImages, himages]

/-- What is chosen with an overlay clears no request for overlay images. -/
theorem keeps_images_of_overlay (hchoose : choose i = .ok choice)
    (hlayer : choice.decision.layer = .overlay) : choice.decision.dropImages = false := by
  obtain ⟨-, hdecided⟩ := decidedBy_of_choose hchoose
  cases hdecided with
  | rootless _ =>
      unfold rootless underlay
      split
      · rfl
      · split <;> rfl
  | overlay _ =>
      revert hlayer
      unfold overlay
      split
      · exact fun _ => rfl
      · cases i.lowerIncompatible with
        | none => exact fun _ => rfl
        | some reason =>
            -- an overlay is never its own replacement
            intro hlayer
            simp only [fallback] at hlayer
            split at hlayer <;> cases hlayer
  | withoutOverlay _ _ _ _ =>
      unfold withoutOverlay underlay
      split
      · split <;> rfl
      · rfl

/-- A writable tmpfs that is not cleared has an overlay to lie in, unless it is
overlooked. -/
theorem tmpfs_served_iff (hchoose : choose i = .ok choice) :
    (i.writableTmpfs = true → choice.decision.disableTmpfs = false →
      choice.decision.layer = .overlay) ↔ ¬ i.OverlooksTmpfs := by
  obtain ⟨-, hdecided⟩ := decidedBy_of_choose hchoose
  cases htmpfs : i.writableTmpfs with
  | false => simp [LayerConditions.OverlooksTmpfs, htmpfs]
  | true =>
      cases hdecided with
      | rootless hrootless =>
          have hallows : ¬ i.AllowsOverlay := fun hallows => hallows.1 hrootless
          by_cases hbare : i.enableUnderlay = false ∨ i.writableImage = true
          · have hplain : rootless i = unconditional .none := if_pos (by simpa using hbare)
            simp [LayerConditions.OverlooksTmpfs, htmpfs, hrootless, hbare, hplain, unconditional]
          · have hunder : rootless i = underlay i := if_neg (by simpa using hbare)
            simp [LayerConditions.OverlooksTmpfs, htmpfs, hrootless, hbare, hallows, hunder,
              underlay]
      | overlay hallows =>
          by_cases hbare : i.writableImage = true ∧ i.sifExt3Overlay = false
          · have hplain : overlay i = unconditional .none := if_pos (by simpa using hbare)
            simp [LayerConditions.OverlooksTmpfs, htmpfs, hallows, hbare, hplain, unconditional]
          · have hrootless := hallows.1
            cases hlower : i.lowerIncompatible with
            | none =>
                have hover : overlay i = unconditional .overlay := by
                  rw [overlay, if_neg (by simpa using hbare), hlower]
                simp [LayerConditions.OverlooksTmpfs, hrootless, hbare, hover, unconditional]
            | some reason =>
                have hover : overlay i = fallback i reason := by
                  rw [overlay, if_neg (by simpa using hbare), hlower]
                simp [LayerConditions.OverlooksTmpfs, htmpfs, hrootless, hbare, hover, fallback]
      | withoutOverlay _ _ _ hnone => rw [htmpfs] at hnone; cases hnone

/-! ## Images that are written themselves -/

/-- Over an image that is to be written there is no layer, or an overlay if the image brings
one that can be written.  What takes the place of an overlay that the file system below the
image does not carry is out of the question where that is asked only about other images. -/
theorem layer_of_writableImage (hchoose : choose i = .ok choice) (hwritable : i.writableImage = true)
    (hlower : i.sifExt3Overlay = true → i.lowerIncompatible = none) :
    choice.decision.layer = .none ∨
      choice.decision.layer = .overlay ∧ i.sifExt3Overlay = true := by
  obtain ⟨-, hdecided⟩ := decidedBy_of_choose hchoose
  cases hdecided with
  | rootless _ => simp [rootless, hwritable, unconditional]
  | withoutOverlay _ _ _ _ => simp [withoutOverlay, hwritable, unconditional]
  | overlay _ =>
      cases hext3 : i.sifExt3Overlay with
      | false => simp [overlay, hwritable, hext3, unconditional]
      | true => simp [overlay, hwritable, hext3, hlower hext3, unconditional]

end LayerChoice
end ContainerLaunch
