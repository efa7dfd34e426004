import ContainerLaunch.Proofs.Launch.ReadOnly
import ContainerLaunch.Proofs.WritableRoot
/-!
# Overlays that are written

Of the overlays of a launch at most one may be written.  They are counted while they are
opened, and an overlay that the root image brings with it counts as well.  What counts is
whether an overlay can be written, not how it was asked for: one that lies on a read-only
file system is opened for reading, and the launch goes on as if it had been asked for so.
-/

namespace ContainerLaunch

namespace Image

/-- The image lies over the root and may be written. -/
def isWrittenOverlay (i : Image) : Bool :=
  i.usage == .overlay && i.writable

/-- A SIF image that brings an overlay partition with an ext3 file system. -/
def bringsOverlay (i : Image) : Bool :=
  i.format.isSif && i.partitions.any fun p => p.role == .overlay && p.fs == .ext3

/-- The root image is taken to have been written before the overlays if it is to be written
and brings an overlay. -/
theorem embedded_eq (i : Image) (writableImage : Bool) :
    (i.format.isSif && writableImage && i.hasWritableOverlay) =
      (writableImage && i.bringsOverlay) := by
  have hpartitions : i.hasWritableOverlay =
      i.partitions.any fun p => p.role == .overlay && p.fs == .ext3 := by
    rw [hasWritableOverlay, Partition.hasWritableOverlay, Partition.overlays, List.any_filter]
  rw [bringsOverlay, hpartitions, Bool.and_comm i.format.isSif, Bool.and_assoc]

/-- How many of the images of a launch are overlays that may be written: overlay images, and
in an overlay layer the overlay that the root image brings with it, if that is to be
written. -/
def writtenOverlays (images : List Image) (layer : SessionLayer) (writableImage : Bool) : Nat :=
  images.countP isWrittenOverlay +
    images.countP fun i =>
      i.usage == .root && (layer == .overlay && writableImage && i.bringsOverlay)

/-- Of a whole stack of images only the overlays and the root image can count. -/
theorem writtenOverlays_stack {root : Image} {overlays binds : List Image}
    (layer : SessionLayer) (writableImage : Bool) (hroot : root.usage = .root)
    (hoverlays : ∀ i ∈ overlays, i.usage = .overlay) (hbinds : ∀ i ∈ binds, i.usage = .data) :
    writtenOverlays (root :: overlays ++ binds) layer writableImage =
      overlays.countP isWrittenOverlay +
        (layer == .overlay && writableImage && root.bringsOverlay).toNat := by
  have hdata : binds.countP isWrittenOverlay = 0 := by
    rw [List.countP_eq_zero]
    intro i hi
    simp [isWrittenOverlay, hbinds i hi]
  have hrest : (overlays ++ binds).countP (fun i =>
      i.usage == .root && (layer == .overlay && writableImage && i.bringsOverlay)) = 0 := by
    rw [List.countP_eq_zero]
    intro i hi
    have husage : (i.usage == .root) = false := by
      rcases List.mem_append.mp hi with hi | hi
      · rw [hoverlays i hi]
        rfl
      · rw [hbinds i hi]
        rfl
    simp [husage]
  have hfirst : isWrittenOverlay root = false := by
    simp [isWrittenOverlay, hroot]
  rw [writtenOverlays, List.cons_append, List.countP_cons, List.countP_cons, List.countP_append,
    hrest, hdata, hfirst, hroot]
  cases layer == .overlay && writableImage && root.bringsOverlay <;> simp

end Image

namespace Draft

variable {l : Launcher} {policy : Policy} {d d' : Draft} {h h' : Host} {root : Image}
  {images : List Image}

/-! ## The count -/

/-- While overlays are opened, those that may be written are counted: there is at most one,
together with what had been written before. -/
theorem loadOverlays_written {written : Option Path} {requests : List OverlayRequest}
    {r : List Image × Option Path}
    (hrun : (loadOverlays l policy written requests).perform h = (.ok r, h')) :
    r.1.countP Image.isWrittenOverlay + written.toList.length = r.2.toList.length := by
  induction requests generalizing written r h h' with
  | nil =>
      simp only [loadOverlays, Action.perform_pure_ok] at hrun
      obtain ⟨rfl, -⟩ := hrun
      simp
  | cons request rest ih =>
      simp only [loadOverlays] at hrun
      obtain ⟨image, h₁, hload, hrest⟩ := Action.perform_bind_ok.mp hrun
      -- an image that may be written was asked for so
      have hwrites : (request.writable && image.writable) = image.writable := by
        cases hwritable : image.writable with
        | false => rw [Bool.and_false]
        | true => rw [((Image.load_writable_iff hload).2.mp hwritable).1, Bool.and_self]
      have hcounts : Image.isWrittenOverlay { image with usage := .overlay } = image.writable :=
        Bool.true_and _
      have hmore : ∀ {written : Option Path},
          (loadOverlays l policy written rest >>= fun more =>
            pure ({ image with usage := .overlay } :: more.1, more.2)).perform h₁ = (.ok r, h') →
          r.1.countP Image.isWrittenOverlay + written.toList.length =
            r.2.toList.length + image.writable.toNat := by
        intro written hmore
        obtain ⟨more, h₂, htail, hr⟩ := Action.perform_bind_ok.mp hmore
        obtain ⟨rfl, -⟩ := Action.perform_pure_ok.mp hr
        have hcount := ih htail
        simp only [List.countP_cons, hcounts]
        cases image.writable <;> simp <;> omega
      rw [hwrites] at hrest
      split at hrest
      · next hwritable =>
        cases written with
        | some existing => simp at hrest
        | none =>
            have hcount := hmore hrest
            simpa [hwritable] using hcount
      · next hreading =>
        have hcount := hmore hrest
        simpa [hreading] using hcount

/-- The overlays of an overlay layer are opened one after the other, where the overlay of a
root image that is to be written counts as written before.  None may have been written where
there is to be a writable tmpfs. -/
theorem overlayImages_loads {c : LaunchConfig}
    (hrun : (overlayImages l policy root c).perform h = (.ok images, h')) :
    ∃ written h₁,
      (loadOverlays l policy
          (if c.writableImage && root.bringsOverlay then some root.path else none)
          (c.overlayImages.map OverlayRequest.parse)).perform h = (.ok (images, written), h₁) ∧
        (c.writableTmpfs = true → written = none) := by
  simp only [overlayImages, root.embedded_eq] at hrun
  obtain ⟨⟨opened, written⟩, h₁, hload, hrest⟩ := Action.perform_bind_ok.mp hrun
  have hdone : opened = images ∧ (c.writableTmpfs = true → written = none) := by
    cases written with
    | none =>
        have hpure : (pure opened : Action (List Image)).perform h₁ = (.ok images, h') := by
          cases htmpfs : c.writableTmpfs <;> simpa only [htmpfs] using hrest
        exact ⟨(Action.perform_pure_ok.mp hpure).1, fun _ => rfl⟩
    | some path =>
        cases htmpfs : c.writableTmpfs with
        | false =>
            simp only [htmpfs, Action.perform_pure_ok] at hrest
            exact ⟨hrest.1, nofun⟩
        | true => simp [htmpfs] at hrest
  obtain ⟨rfl, hnone⟩ := hdone
  exact ⟨written, h₁, hload, hnone⟩

/-- The overlays of an overlay layer: at most one may be written, and none where there is to
be a writable tmpfs. -/
theorem overlayImages_written {c : LaunchConfig}
    (hrun : (overlayImages l policy root c).perform h = (.ok images, h')) :
    images.countP Image.isWrittenOverlay + (c.writableImage && root.bringsOverlay).toNat ≤ 1 ∧
      (c.writableTmpfs = true →
        images.countP Image.isWrittenOverlay + (c.writableImage && root.bringsOverlay).toNat =
          0) := by
  obtain ⟨written, h₁, hload, hnone⟩ := overlayImages_loads hrun
  have hcount := loadOverlays_written hload
  have hbrought : (if (c.writableImage && root.bringsOverlay) = true then some root.path
      else none).toList.length = (c.writableImage && root.bringsOverlay).toNat := by
    cases c.writableImage && root.bringsOverlay <;> rfl
  rw [hbrought] at hcount
  rw [hcount]
  refine ⟨?_, fun htmpfs => ?_⟩
  · cases written <;> simp
  · rw [hnone htmpfs]
    rfl

/-- The images of a new container have at most one overlay among them that may be written,
and none over a writable tmpfs. -/
theorem withImages_written (hrun : (d.withImages l policy).perform h = (.ok d', h'))
    (hnone : d.images = []) :
    Image.writtenOverlays d'.images d'.config.sessionLayer d.config.writableImage ≤ 1 ∧
      (d'.config.sessionLayer = .overlay → d'.config.writableTmpfs = true →
        Image.writtenOverlays d'.images d'.config.sessionLayer d.config.writableImage = 0) := by
  obtain ⟨root, h₁, choice, overlays, h₂, bindPaths, binds, h₃, entered, hroot, -, -, -, hoverlays,
    hbinds, henter, hadd⟩ := withImages_steps hrun
  obtain ⟨hconfig, hopened⟩ := (entersRoot_ok henter).1.same
  obtain rfl := foldlM_addImage_ok hadd
  obtain ⟨opened, h₀, -, himage, -⟩ := Image.load_ok.mp hroot
  have himages : (entered.withEntries (root :: overlays ++ binds)).images =
      root :: overlays ++ binds := by
    simp only [withEntries, hopened, onRoot, layered, hnone, List.nil_append]
  have hlayer : (entered.withEntries (root :: overlays ++ binds)).config.sessionLayer =
      (d.layered choice.decision).config.sessionLayer := by
    simp only [withEntries, hconfig]
    rfl
  have htmpfs : (entered.withEntries (root :: overlays ++ binds)).config.writableTmpfs =
      (d.layered choice.decision).config.writableTmpfs := by
    simp only [withEntries, hconfig]
    rfl
  rw [himages, hlayer, htmpfs, Image.writtenOverlays_stack _ _
    (Image.ofOpenFile_ok himage).1.usage_eq (overlays_ok hoverlays).usage_eq
    (loadBinds_ok hbinds).usage_eq]
  by_cases hkind : (d.layered choice.decision).config.sessionLayer = .overlay
  · rw [if_pos hkind] at hoverlays
    obtain ⟨hone, hzero⟩ := overlayImages_written hoverlays
    rw [hkind]
    exact ⟨hone, fun _ => hzero⟩
  · rw [if_neg hkind] at hoverlays
    obtain ⟨rfl, -⟩ := Action.perform_pure_ok.mp hoverlays
    refine ⟨?_, fun hover => absurd hover hkind⟩
    rw [List.countP_nil, Nat.zero_add]
    exact Bool.toNat_le _

end Draft

namespace Launcher

variable {l : Launcher} {c : LaunchConfig} {h h' : Host} {r : ReadyLaunch}

theorem written_of_prepare (hfresh : c.instanceJoin = none)
    (hrun : (l.prepare c).perform h = (.ok r, h')) :
    Image.writtenOverlays r.images r.config.sessionLayer c.writableImage ≤ 1 ∧
      (r.config.sessionLayer = .overlay → r.config.writableTmpfs = true →
        Image.writtenOverlays r.images r.config.sessionLayer c.writableImage = 0) := by
  obtain ⟨files, user, d₁, h₁, d₂, h₂, pinned, handles, ends, -, hmade, himages, rfl⟩ :=
    prepare_fresh_ok hfresh hrun
  obtain ⟨-, -, maps, seccomp, -, -, rfl, -⟩ := Draft.fresh_ok.mp hmade
  obtain ⟨hnone, -, -, hwritable, -⟩ := freshWith_opening l c h user files
    (Draft.asksForTarget c l.facts.caller) maps seccomp
  have hwritten := Draft.withImages_written himages hnone
  rw [hwritable] at hwritten
  exact hwritten

/-- At most one overlay of a new container may be written, and none where the layer is an
overlay with a writable tmpfs.  An overlay that lies on a read-only file system may not be
written.  If a request asks to write one, it comes to the same as if it had asked to read
it. -/
theorem one_writable_overlay (hfresh : c.instanceJoin = none) :
    (∀ r h', (l.prepare c).perform h = (.ok r, h') →
      Image.writtenOverlays r.images r.config.sessionLayer c.writableImage ≤ 1 ∧
        (r.config.sessionLayer = .overlay → r.config.writableTmpfs = true →
          Image.writtenOverlays r.images r.config.sessionLayer c.writableImage = 0)) ∧
      (h.StandsSomewhere →
        (∀ r h', (l.prepare c).perform h = (.ok r, h') →
          ∀ i ∈ r.images, h.KeptReadOnly i.file.place i.file.inode → i.writable = false) ∧
        ∀ before asked after reading, c.overlayImages = before ++ asked :: after →
          OverlayRequest.parse reading = { OverlayRequest.parse asked with writable := false } →
          h.LeadsReadOnly (OverlayRequest.parse asked).path →
          ((l.prepare { c with overlayImages := before ++ reading :: after }).perform h).1.map
              (fun r => r.withOverlays []) =
            ((l.prepare c).perform h).1.map fun r => r.withOverlays []) := by
  refine ⟨fun r h' hrun => written_of_prepare hfresh hrun, fun hstands => ⟨?_, ?_⟩⟩
  · intro r h' hrun i hi hkept
    obtain ⟨-, files, root, overlays, binds, -, himages, hroot, hoverlays, hbinds⟩ :=
      fresh_imageList hfresh hrun
    rw [himages, List.mem_append, List.mem_cons] at hi
    rcases hi with (rfl | hi) | hi
    · exact hroot.not_writable hstands hkept
    · obtain ⟨spec, hspec⟩ := Image.exists_of_mem_of_forall₂ hoverlays hi
      exact hspec.not_writable hstands hkept
    · obtain ⟨b, hb⟩ := Image.exists_of_mem_of_forall₂ hbinds hi
      exact hb.not_writable hstands hkept
  · intro before asked after reading hasked hreading hreadOnly
    refine prepare_withOverlays hfresh fun files _ => ?_
    rw [hasked]
    have hrefl : ∀ texts : List String,
        List.Forall₂ (Draft.AsGood h files.policy l.inspect) texts texts := fun texts =>
      List.forall₂_same.mpr fun text _ => .refl _ _ _
    refine List.rel_append (hrefl before) (.cons ?_ (hrefl after))
    rw [Draft.AsGood, hreading]
    exact OverlayRequest.asGood_reading files.policy l.inspect hstands hreadOnly

/-! ## Two overlays of which one is in an archive, and one with the mark in its name -/

/-- A host whose kernel knows overlays, with a read-only file system in an archive and
another one at a directory with the mark in its name. -/
def archiveHost : Host :=
  { Host.plain ⟨1000, 1000, 1000, []⟩
      [["etc"], ["etc", "stagehand"], ["image"], ["proc"], ["upper"], ["archive"],
        ["upper (deleted)"]]
      [(["etc", "stagehand", "stagehand.yaml"], ""),
        (["proc", "filesystems"], "nodev\toverlay\n")] with
    restrictions := ⟨[], [["archive"], ["upper (deleted)"]], []⟩ }

theorem standsSomewhere_archiveHost : archiveHost.StandsSomewhere := by
  intro directory hdirectory
  obtain rfl := Option.some.inj hdirectory
  exact Walk.reached_root

theorem leadsReadOnly_archive : archiveHost.LeadsReadOnly ⟨"/archive"⟩ := by
  intro k place inode hgrown hfind
  have havoid : archiveHost.Avoids Host.processes ⟨"/archive"⟩ := by decide +kernel
  rw [hgrown.find_eq_of_avoids havoid] at hfind
  have hplace : (archiveHost.find ⟨"/archive"⟩).toOption.map Prod.fst = some ["archive"] := by
    decide +kernel
  rw [hfind] at hplace
  obtain rfl := Option.some.inj hplace
  exact ⟨by decide, fun _ => by decide +kernel⟩

/-- A request to write two overlays. -/
def twoOverlays : String :=
  "\x7b\"image\":\"/image\",\"process\":\x7b\"args\":[\"sh\"]\x7d," ++
    "\"overlayImages\":[\"/upper\",\"/archive\"]\x7d"

theorem one_writable_overlay_archive :
    ∃ c r h', LaunchConfig.parse twoOverlays = .ok c ∧ c.instanceJoin = none ∧
      archiveHost.StandsSomewhere ∧ archiveHost.LeadsReadOnly ⟨"/archive"⟩ ∧
      ((onHost archiveHost false).prepare c).perform archiveHost = (.ok r, h') ∧
      r.images.map (fun i => (i.usage, i.writable)) =
        [(.root, false), (.overlay, true), (.overlay, false)] ∧
      Image.writtenOverlays r.images r.config.sessionLayer c.writableImage ≤ 1 ∧
      (((onHost archiveHost false).prepare
            { c with overlayImages := ["/upper", "/archive:ro"] }).perform archiveHost).1.map
          (fun r => r.withOverlays []) = .ok (r.withOverlays []) := by
  obtain ⟨c, hparse, hc⟩ : ∃ c, LaunchConfig.parse twoOverlays = .ok c ∧
      (c.instanceJoin, c.overlayImages,
        (((onHost archiveHost false).prepare c).perform archiveHost).1.toOption.map fun r =>
          r.images.map fun i => (i.usage, i.writable)) =
      (none, ["/upper", "/archive"],
        some [(.root, false), (.overlay, true), (.overlay, false)]) :=
    Error.exists_ok_of_map (by decide +kernel)
  simp only [Prod.mk.injEq] at hc
  obtain ⟨hfresh, hasked, hready⟩ := hc
  obtain ⟨r, h', hrun, hwritable⟩ := Action.exists_perform_ok hready
  obtain ⟨hcount, hreadOnly⟩ := one_writable_overlay (l := onHost archiveHost false) hfresh
  obtain ⟨-, hsame⟩ := hreadOnly standsSomewhere_archiveHost
  have hother := hsame ["/upper"] "/archive" [] "/archive:ro" hasked (by decide +kernel)
    (by rw [show (OverlayRequest.parse "/archive").path = ⟨"/archive"⟩ by decide +kernel]
        exact leadsReadOnly_archive)
  rw [hrun] at hother
  exact ⟨c, r, h', hparse, hfresh, standsSomewhere_archiveHost, leadsReadOnly_archive, hrun,
    hwritable, (hcount r h' hrun).1, hother⟩

/-- A request to write an overlay with the mark in its name. -/
def markedOverlay : String :=
  "\x7b\"image\":\"/image\",\"process\":\x7b\"args\":[\"sh\"]\x7d," ++
    "\"overlayImages\":[\"/upper (deleted)\"]\x7d"

/-- The overlay lies on a read-only file system, and is handed on as one that may be
written: it was the directory next to it that was asked about. -/
theorem overlay_written_readOnly :
    ∃ c r h' i, LaunchConfig.parse markedOverlay = .ok c ∧ c.instanceJoin = none ∧
      ((onHost archiveHost false).prepare c).perform archiveHost = (.ok r, h') ∧
      i ∈ r.images ∧ i.usage = .overlay ∧ i.file.place = ["upper (deleted)"] ∧
      archiveHost.restrictions.readOnly.any i.file.place.isUnder = true ∧ i.writable = true := by
  obtain ⟨c, hparse, hc⟩ : ∃ c, LaunchConfig.parse markedOverlay = .ok c ∧
      (c.instanceJoin,
        (((onHost archiveHost false).prepare c).perform archiveHost).1.toOption.map fun r =>
          (r.images.drop 1).map fun i =>
            (i.usage, i.writable, decide (i.file.place = ["upper (deleted)"]))) =
      (none, some [(.overlay, true, true)]) :=
    Error.exists_ok_of_map (by decide +kernel)
  obtain ⟨hfresh, hready⟩ := Prod.mk.inj hc
  obtain ⟨r, h', hrun, hr⟩ := Action.exists_perform_ok hready
  obtain ⟨i, hi, hsame⟩ := List.map_eq_singleton_iff.mp hr
  simp only [Prod.mk.injEq] at hsame
  obtain ⟨husage, hwritable, hmark⟩ := hsame
  have hplace := of_decide_eq_true hmark
  refine ⟨c, r, h', i, hparse, hfresh, hrun, List.mem_of_mem_drop (hi ▸ List.mem_singleton_self i),
    husage, hplace, ?_, hwritable⟩
  rw [hplace]
  decide

end Launcher
end ContainerLaunch
