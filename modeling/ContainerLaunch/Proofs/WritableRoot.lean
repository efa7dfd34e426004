import ContainerLaunch.Proofs.Launch.Planned
import ContainerLaunch.Proofs.Launch.Writing
import ContainerLaunch.Proofs.ServedOverlays
/-!
# Launches that write to their image

A launch may ask for its root image to be written.  Whether it can be is decided in more
than one place: when the image is opened, when the layer over it is chosen, and by the
partitions of the image.  A launch that gets ready has passed all of them.
-/

namespace ContainerLaunch

namespace Image

variable {inspect : SifReader} {file : OpenFile} {i : Image}

/-- The image has a partition of some purpose with an ext3 file system. -/
def HasExt3 (i : Image) (role : PartitionPurpose) : Prop :=
  ∃ p ∈ i.partitions, p.role = role ∧ p.fs = .ext3

theorem hasWritableOverlay_iff : i.hasWritableOverlay = true ↔ i.HasExt3 .overlay := by
  simp only [hasWritableOverlay, Partition.hasWritableOverlay, Partition.overlays, List.any_filter,
    List.any_eq_true, Bool.and_eq_true, beq_iff_eq, HasExt3]

theorem hasExt3_of_rootPartition {p : Partition} (hroot : i.rootPartition = .ok p)
    (hfs : p.fs = .ext3) : i.HasExt3 .primary := by
  unfold rootPartition Partition.root? at hroot
  cases hfind : i.partitions.find? (fun p => p.role == .primary) with
  | none => simp [hfind] at hroot
  | some found =>
      simp only [hfind, Except.ok.injEq] at hroot
      subst hroot
      exact ⟨found, List.mem_of_find?_eq_some hfind, by simpa using List.find?_some hfind, hfs⟩

/-- Only a SIF file can bring an overlay. -/
theorem Contents.isSif_of_overlay (hcontents : Contents inspect file i.format i.partitions)
    (hoverlay : i.HasExt3 .overlay) : i.format.isSif = true := by
  obtain ⟨p, hp, hrole, -⟩ := hoverlay
  generalize hformat : i.format = format at hcontents
  generalize i.partitions = partitions at hcontents hp
  cases hcontents with
  | sif _ _ layout _ => cases layout.oci <;> rfl
  | sandbox _ | squashfs _ _ | ext3 _ _ =>
      obtain rfl := List.mem_singleton.mp hp
      cases hrole

/-- A root image that is to be written fits the layer over it.  There is none, or it is an
overlay that a SIF image brings itself; and a SIF image has something in it to write to,
its root file system or the overlay. -/
structure WrittenUnder (root : Image) (layer : SessionLayer) : Prop where
  layer_eq : layer = .none ∨ layer = .overlay ∧ root.format.isSif = true ∧ root.HasExt3 .overlay
  partition_of_isSif : root.format.isSif = true →
    root.HasExt3 .primary ∨ layer = .overlay ∧ root.HasExt3 .overlay

end Image

namespace Draft

variable {l : Launcher} {policy : Policy} {d d' : Draft} {h h' : Host} {root : Image}

theorem requireWritableRoot_ok {overlayLayer : Bool} (hsif : root.format.isSif = true)
    (hrequired : requireWritableRoot root true overlayLayer = .ok ()) :
    root.HasExt3 .primary ∨ overlayLayer = true ∧ root.HasExt3 .overlay := by
  simp only [requireWritableRoot, hsif, Bool.not_true, Bool.or_self, Bool.false_eq_true,
    if_false] at hrequired
  obtain ⟨partition, hpartition, hfits⟩ := Error.bind_eq_ok.mp hrequired
  by_cases hfs : partition.fs = .ext3
  · exact Or.inl (Image.hasExt3_of_rootPartition hpartition hfs)
  · by_cases hoverlay : (overlayLayer && root.hasWritableOverlay) = true
    · rw [Bool.and_eq_true] at hoverlay
      exact Or.inr ⟨hoverlay.1, Image.hasWritableOverlay_iff.mp hoverlay.2⟩
    · simp [hfs, hoverlay] at hfits

/-- The layer that is chosen over a root image that was loaded to be written, and that has
what it takes. -/
theorem writtenUnder_of_choose {choice : LayerChoice}
    (hload : (Image.load policy l.inspect d.config.image d.config.writableImage).perform h =
      (.ok root, h'))
    (hwritable : d.config.writableImage = true)
    (hchoice : LayerChoice.choose
      (layerInputs l policy d.config root (lowerFileSystem h' root)) = .ok choice)
    (hrequired : requireWritableRoot root d.config.writableImage
      ((d.layered choice.decision).config.sessionLayer = .overlay) = .ok ()) :
    root.WrittenUnder choice.decision.layer := by
  obtain ⟨opened, h₁, -, himage, -⟩ := Image.load_ok.mp hload
  have hcontents := (Image.ofOpenFile_ok himage).1.contents
  -- the file system below the image is looked at only where the image is a directory
  have hlower : root.hasWritableOverlay = true → lowerFileSystem h' root = none := by
    intro hoverlay
    have hsif := hcontents.isSif_of_overlay (Image.hasWritableOverlay_iff.mp hoverlay)
    refine if_neg fun hsandbox => ?_
    rw [hsandbox] at hsif
    cases hsif
  rw [hwritable] at hrequired
  refine ⟨?_, fun hsif => ?_⟩
  · refine (LayerChoice.layer_of_writableImage hchoice hwritable hlower).imp_right ?_
    rintro ⟨hlayer, hoverlay⟩
    have hext3 := Image.hasWritableOverlay_iff.mp hoverlay
    exact ⟨hlayer, hcontents.isSif_of_overlay hext3, hext3⟩
  · refine (requireWritableRoot_ok hsif hrequired).imp_right ?_
    rintro ⟨hlayer, hext3⟩
    exact ⟨of_decide_eq_true hlayer, hext3⟩

/-- Images that are loaded where the root image is to be written: it can be, the layer fits
it, and no overlay images are asked for. -/
theorem withImages_writable (hrun : (d.withImages l policy).perform h = (.ok d', h'))
    (hwritable : d.config.writableImage = true) :
    d.config.overlayImages = [] ∧ ∃ root rest, d'.images = d.images ++ root :: rest ∧
      root.writable = true ∧ root.WrittenUnder d'.config.sessionLayer := by
  obtain ⟨root, h₁, choice, overlays, h₂, bindPaths, binds, h₃, entered, hroot, hwanted, hchoice,
    hrequired, -, -, henter, hadd⟩ := withImages_steps hrun
  obtain ⟨hconfig, himages⟩ := (entersRoot_ok henter).1.same
  obtain rfl := foldlM_addImage_ok hadd
  obtain ⟨hwrites, hnone⟩ := hwanted hwritable
  refine ⟨hnone, root, overlays ++ binds, ?_, hwrites, ?_⟩
  · simp only [withEntries, himages]
    rfl
  · simp only [withEntries, hconfig]
    exact writtenUnder_of_choose hroot hwritable hchoice hrequired

end Draft

namespace Launcher

variable {l : Launcher} {c : LaunchConfig} {h h' : Host} {r : ReadyLaunch}

/-- A new container that is to write to its root image gets ready only if no overlay images
are asked for with it.  Its root image is then open for writing, and fits the layer over
it. -/
theorem writable_root (hfresh : c.instanceJoin = none) (hwritable : c.writableImage = true)
    (hrun : (l.prepare c).perform h = (.ok r, h')) :
    c.overlayImages = [] ∧ ∃ root rest, r.images = root :: rest ∧
      root.usage = .root ∧ (∀ i ∈ rest, i.usage ≠ .root) ∧ root.writable = true ∧
      (∃ h₁, h₁.lasting = h.lasting ∧ root.MayBeWritten h₁) ∧
      root.WrittenUnder r.config.sessionLayer := by
  obtain ⟨-, files, root, overlays, binds, -, hlist, hroot, hoverlays, hbinds⟩ :=
    fresh_imageList hfresh hrun
  obtain ⟨files', user, d₁, h₁, d₂, h₂, pinned, handles, ends, -, hmade, himages, rfl⟩ :=
    prepare_fresh_ok hfresh hrun
  obtain ⟨-, -, maps, seccomp, -, -, rfl, -⟩ := Draft.fresh_ok.mp hmade
  obtain ⟨hempty, -, -, -, -⟩ := freshWith_opening l c h user files'
    (Draft.asksForTarget c l.facts.caller) maps seccomp
  obtain ⟨hasked, hwanted, -⟩ := freshWith_layerRequests l c h user files'
    (Draft.asksForTarget c l.facts.caller) maps seccomp
  obtain ⟨hnone, first, rest, hopened, hwrites, hfits⟩ :=
    Draft.withImages_writable himages (hasked.trans hwritable)
  -- the image that is loaded first is the root image of the list
  have hsame : first :: rest = root :: (overlays ++ binds) := by
    rw [hempty, List.nil_append] at hopened
    exact hopened.symm.trans (hlist.trans (List.cons_append ..))
  obtain ⟨rfl, rfl⟩ := List.cons.inj hsame
  refine ⟨hwanted.symm.trans hnone, first, overlays ++ binds, hlist, hroot.usage_eq, ?_, hwrites,
    (hroot.mayBeWritten hwrites).2, hfits⟩
  intro i hi husage
  rcases List.mem_append.mp hi with hi | hi
  · obtain ⟨spec, hspec⟩ := Image.exists_of_mem_of_forall₂ hoverlays hi
    rw [hspec.usage_eq] at husage
    cases husage
  · obtain ⟨b, hb⟩ := Image.exists_of_mem_of_forall₂ hbinds hi
    rw [hb.usage_eq] at husage
    cases husage

/-! ## A SIF image that is written through its own overlay -/

/-- A host with a SIF file, whose kernel knows overlays. -/
def sifHost : Host :=
  Host.plain ⟨1000, 1000, 1000, []⟩ [["etc"], ["etc", "stagehand"], ["proc"]]
    [(["etc", "stagehand", "stagehand.yaml"], ""), (["proc", "filesystems"], "nodev\toverlay\n"),
      (["image.sif"], "--------------------------------SIF_MAGIC")]

/-- A launcher that finds a root file system that cannot be written, and an overlay that
can, in every SIF file. -/
def sifLauncher : Launcher :=
  { onHost sifHost false with
    inspect := fun _ => .ok ⟨[⟨.squashfs, .primary, 0, 0⟩, ⟨.ext3, .overlay, 0, 0⟩], false⟩ }

/-- A request to write to the SIF image. -/
def writableSif : String :=
  "\x7b\"image\":\"/image.sif\",\"writableImage\":true,\"process\":\x7b\"args\":[\"sh\"]\x7d\x7d"

theorem writable_root_writableSif :
    ∃ c r h' root, LaunchConfig.parse writableSif = .ok c ∧ c.instanceJoin = none ∧
      c.writableImage = true ∧ (sifLauncher.prepare c).perform sifHost = (.ok r, h') ∧
      r.images = [root] ∧ r.config.sessionLayer = .overlay ∧ root.writable = true ∧
      root.WrittenUnder .overlay := by
  obtain ⟨c, hparse, hc⟩ : ∃ c, LaunchConfig.parse writableSif = .ok c ∧
      (c.instanceJoin, c.writableImage,
        ((sifLauncher.prepare c).perform sifHost).1.toOption.map fun r =>
          (r.config.sessionLayer, r.images.length)) =
      (none, true, some (.overlay, 1)) :=
    Error.exists_ok_of_map (by decide +kernel)
  simp only [Prod.mk.injEq] at hc
  obtain ⟨hfresh, hwritable, hready⟩ := hc
  obtain ⟨r, h', hrun, hr⟩ := Action.exists_perform_ok hready
  obtain ⟨hlayer, hlength⟩ := Prod.mk.inj hr
  obtain ⟨-, root, rest, himages, -, -, hwrites, -, hfits⟩ :=
    writable_root hfresh hwritable hrun
  have hrest : rest = [] := by simpa [himages] using hlength
  rw [hrest] at himages
  rw [hlayer] at hfits
  exact ⟨c, r, h', root, hparse, hfresh, hwritable, hrun, himages, hlayer, hwrites, hfits⟩

end Launcher
end ContainerLaunch
