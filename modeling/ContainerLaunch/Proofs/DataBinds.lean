import ContainerLaunch.Proofs.ImageList
import ContainerLaunch.Proofs.Launch.Writing
/-!
# Bind mounts of images

A bind mount that names an image is handed on with the open image as its source, and it is
read-only exactly if the image is.  The images and the bind mounts that name them stay side
by side while the images are opened one after the other; all other bind mounts are handed
on as they came.
-/

namespace ContainerLaunch

namespace BindMount

variable {policy : Policy} {inspect : SifReader} {h : Host} {b b' : BindMount} {i : Image}
  {bs bs' : List BindMount} {images : List Image}

/-- A bind mount that names an image is handed on with that image: the descriptor is its
source, it is read-only exactly if the image is, and a partition that it names is there. -/
structure HandedWith (policy : Policy) (inspect : SifReader) (h : Host) (b b' : BindMount)
    (i : Image) : Prop where
  names : b.namesImage = true
  opened : Image.OpenedFor policy inspect h .data b.source (!b.readonly) i
  handed : b' = { b with source := i.source, readonly := !i.writable }
  partition_exists : ∀ id, b.id = some id → 1 ≤ id.toNat ∧ id.toNat ≤ i.partitions.length

theorem HandedWith.not_writable (hb : HandedWith policy inspect h b b' i)
    (hreading : b.readonly = true) : i.writable = false := by
  have hopened := hb.opened
  rw [hreading] at hopened
  exact hopened.not_writable_of_reading

/-- Bind mounts as they are handed on, and the images that were opened for them. -/
inductive HandedOn (policy : Policy) (inspect : SifReader) (h : Host) :
    List BindMount → List BindMount → List Image → Prop
  | nil : HandedOn policy inspect h [] [] []
  | plain {b : BindMount} {bs bs' : List BindMount} {images : List Image}
      (hplain : b.namesImage = false) (hrest : HandedOn policy inspect h bs bs' images) :
      HandedOn policy inspect h (b :: bs) (b :: bs') images
  | image {b b' : BindMount} {i : Image} {bs bs' : List BindMount} {images : List Image}
      (hb : HandedWith policy inspect h b b' i) (hrest : HandedOn policy inspect h bs bs' images) :
      HandedOn policy inspect h (b :: bs) (b' :: bs') (i :: images)

namespace HandedOn

/-- Nothing but the source of an image and whether it is read-only is changed. -/
theorem entries (hall : HandedOn policy inspect h bs bs' images) :
    List.Forall₂ (fun b b' : BindMount =>
        b'.destination = b.destination ∧ b'.imageSource = b.imageSource ∧ b'.id = b.id ∧
          (b.namesImage = false → b' = b)) bs bs' := by
  induction hall with
  | nil => exact .nil
  | plain hplain _ ih => exact .cons ⟨rfl, rfl, rfl, fun _ => rfl⟩ ih
  | image hb _ ih =>
      refine .cons ?_ ih
      rw [hb.handed]
      exact ⟨rfl, rfl, rfl, fun hnot => by rw [hb.names] at hnot; cases hnot⟩

/-- The bind mounts that name an image correspond to the images, as they were asked for. -/
theorem asked (hall : HandedOn policy inspect h bs bs' images) :
    List.Forall₂ (fun b i =>
        Image.OpenedFor policy inspect h .data b.source (!b.readonly) i ∧
          (b.readonly = true → i.writable = false))
      (bs.filter namesImage) images := by
  induction hall with
  | nil => exact .nil
  | plain hplain _ ih => rwa [List.filter_cons, hplain]
  | image hb _ ih =>
      rw [List.filter_cons, if_pos hb.names]
      exact .cons ⟨hb.opened, hb.not_writable⟩ ih

/-- The bind mounts that name an image correspond to the images, as they are handed on. -/
theorem handed (hall : HandedOn policy inspect h bs bs' images) :
    List.Forall₂ (fun b i =>
        b.source = Host.pathOfDescriptor i.file.number ∧ b.readonly = !i.writable ∧
          ∀ id, b.id = some id → 1 ≤ id.toNat ∧ id.toNat ≤ i.partitions.length)
      (bs'.filter namesImage) images := by
  induction hall with
  | nil => exact .nil
  | plain hplain _ ih => rwa [List.filter_cons, hplain]
  | @image b b' i _ _ _ hb _ ih =>
      have hnames : b'.namesImage = true := by
        rw [hb.handed]
        exact hb.names
      rw [List.filter_cons, if_pos hnames]
      refine .cons ?_ ih
      rw [hb.handed]
      exact ⟨rfl, rfl, hb.partition_exists⟩

end HandedOn
end BindMount

namespace Draft

variable {l : Launcher} {policy : Policy} {d d' : Draft} {h h₀ h' : Host} {b : BindMount}

theorem checkPartition_ok {i : Image} :
    checkPartition b i = .ok () ↔
      ∀ id, b.id = some id → 1 ≤ id.toNat ∧ id.toNat ≤ i.partitions.length := by
  unfold checkPartition
  cases b.id with
  | none => simp
  | some id =>
      have hzero : id = 0 ↔ id.toNat = 0 := by
        rw [← UInt32.toNat_inj]
        rfl
      simp only [Option.some.injEq, forall_eq', hzero]
      split
      · next hbad => exact iff_of_false nofun (by omega)
      · next hgood => exact iff_of_true rfl (by omega)

/-- An image that is opened for a bind mount stands beside it. -/
theorem loadBind_handedWith {r : BindMount × Image} (hnames : b.namesImage = true)
    (hlast : h₀.lasting = h.lasting)
    (hrun : (loadBind l policy b).perform h₀ = (.ok r, h')) :
    BindMount.HandedWith policy l.inspect h b r.1 r.2 := by
  simp only [loadBind] at hrun
  obtain ⟨loaded, h₁, hload, hrun⟩ := Action.perform_bind_ok.mp hrun
  obtain ⟨h₂, -, hrun⟩ := Action.perform_when_ok.mp hrun
  obtain ⟨_, hpartition, hdone⟩ := Action.perform_ofExcept_bind_ok.mp hrun
  obtain ⟨rfl, -⟩ := Action.perform_pure_ok.mp hdone
  have hopened : Image.OpenedFor policy l.inspect h .data b.source (!b.readonly)
      { loaded with usage := .data } := ⟨h₀, h₁, loaded, hlast, hload, rfl⟩
  have hreadonly : (b.readonly || !loaded.writable) = !loaded.writable := by
    cases hreading : b.readonly with
    | false => rfl
    | true =>
        rw [hreading] at hopened
        have hnot : loaded.writable = false := hopened.not_writable_of_reading
        rw [hnot]
        rfl
  refine ⟨hnames, hopened, ?_, checkPartition_ok.mp hpartition⟩
  rw [hreadonly]

/-- While the images of bind mounts are opened, each one stands beside its bind mount. -/
theorem loadBinds_handedOn {bs : List BindMount} {r : List BindMount × List Image}
    (hlast : h₀.lasting = h.lasting)
    (hrun : (loadBinds l policy bs).perform h₀ = (.ok r, h')) :
    BindMount.HandedOn policy l.inspect h bs r.1 r.2 := by
  induction bs generalizing r h₀ h' with
  | nil =>
      simp only [loadBinds, Action.perform_pure_ok] at hrun
      obtain ⟨rfl, -⟩ := hrun
      exact .nil
  | cons b rest ih =>
      simp only [loadBinds] at hrun
      by_cases hnames : b.namesImage = true
      · simp only [hnames, if_true] at hrun
        obtain ⟨first, h₁, hfirst, hrun⟩ := Action.perform_bind_ok.mp hrun
        obtain ⟨more, h₂, hmore, hdone⟩ := Action.perform_bind_ok.mp hrun
        obtain ⟨rfl, -⟩ := Action.perform_pure_ok.mp hdone
        have hstill : h₁.lasting = h₀.lasting := (quiet_loadBind _ _ _).lasting_eq hfirst
        exact .image (loadBind_handedWith hnames hlast hfirst) (ih (hstill.trans hlast) hmore)
      · simp only [hnames, if_false, Bool.false_eq_true] at hrun
        obtain ⟨more, h₁, hmore, hdone⟩ := Action.perform_bind_ok.mp hrun
        obtain ⟨rfl, -⟩ := Action.perform_pure_ok.mp hdone
        exact .plain (Bool.eq_false_iff.mpr hnames) (ih hlast hmore)

/-- Among the images of a new container those of bind mounts are the data images, and the
bind mounts are handed on with them. -/
theorem withImages_handedOn (hrun : (d.withImages l policy).perform h = (.ok d', h'))
    (hnone : d.images = []) :
    BindMount.HandedOn policy l.inspect h d.config.bindPaths d'.config.bindPaths
      (d'.images.filter fun image => image.usage = .data) := by
  obtain ⟨root, h₁, choice, overlays, h₂, bindPaths, binds, h₃, entered, hroot, -, -, -, hoverlays,
    hbinds, henter, hadd⟩ := withImages_steps hrun
  obtain ⟨hconfig, hopened⟩ := (entersRoot_ok henter).1.same
  obtain rfl := foldlM_addImage_ok hadd
  have hloads := overlays_ok hoverlays
  have hfirst : h₁.lasting = h.lasting := (Image.quiet_load _ _ _ _).lasting_eq hroot
  have htold : (h₁.tellAll choice.notices).lasting = h.lasting := hfirst
  have hlast : h₂.lasting = h.lasting := hloads.lasting_eq.trans htold
  have himages : (entered.withEntries (root :: overlays ++ binds)).images =
      root :: overlays ++ binds := by
    simp only [withEntries, hopened, onRoot, layered, hnone, List.nil_append]
  have hmounts : (entered.withEntries (root :: overlays ++ binds)).config.bindPaths =
      bindPaths := by
    simp only [withEntries, hconfig, onRoot]
  have hdata : (root :: overlays ++ binds).filter (fun image => image.usage = .data) = binds := by
    have hopenedRoot := Image.openedFor_of_load rfl hroot
    have hoverlayImages := hloads.openedFor htold
    have hbindImages := (loadBinds_ok hbinds).openedFor hlast
    rw [List.filter_append, List.filter_cons_of_neg (by simp [hopenedRoot.usage_eq]),
      Image.filter_usage_eq hoverlayImages, Image.filter_usage_eq hbindImages]
    rfl
  rw [himages, hmounts, hdata]
  exact loadBinds_handedOn hlast hbinds

end Draft

namespace Launcher

variable {l : Launcher} {c : LaunchConfig} {h h' : Host} {r : ReadyLaunch}

/-- In every launch of a new container the bind mounts that name an image correspond, one to
one and in order, to the data images.  Such a bind mount is handed on with the descriptor of
its image as the source, read-only exactly if the image may not be written, and a partition
that it names is one of the image.  The image was opened from the source that was asked for,
and is not written where the bind mount was to be read-only.  Nothing else about the bind
mounts is changed, and nothing at all about the others. -/
theorem data_binds_correspond (hfresh : c.instanceJoin = none)
    (hrun : (l.prepare c).perform h = (.ok r, h')) :
    ∃ files, l.loadPolicy c h = .ok files ∧
      List.Forall₂ (fun b b' : BindMount =>
          b'.destination = b.destination ∧ b'.imageSource = b.imageSource ∧ b'.id = b.id ∧
            (b.namesImage = false → b' = b))
        c.bindPaths r.config.bindPaths ∧
      List.Forall₂ (fun b i =>
          b.source = Host.pathOfDescriptor i.file.number ∧ b.readonly = !i.writable ∧
            ∀ id, b.id = some id → 1 ≤ id.toNat ∧ id.toNat ≤ i.partitions.length)
        (r.config.bindPaths.filter BindMount.namesImage)
        (r.images.filter fun image => image.usage = .data) ∧
      List.Forall₂ (fun b i =>
          Image.OpenedFor files.policy l.inspect h .data b.source (!b.readonly) i ∧
            (b.readonly = true → i.writable = false))
        (c.bindPaths.filter BindMount.namesImage)
        (r.images.filter fun image => image.usage = .data) := by
  obtain ⟨files, user, d₁, h₁, d₂, h₂, pinned, handles, ends, hfiles, hmade, himages, rfl⟩ :=
    prepare_fresh_ok hfresh hrun
  obtain ⟨-, -, maps, seccomp, -, -, rfl, rfl⟩ := Draft.fresh_ok.mp hmade
  obtain ⟨hnone, -, -, -, hbinds⟩ := freshWith_opening l c h user files
    (Draft.asksForTarget c l.facts.caller) maps seccomp
  have hall := Draft.withImages_handedOn himages hnone
  rw [hbinds] at hall
  exact ⟨files, hfiles, hall.entries, hall.handed, hall.asked⟩

/-! ## An image on a read-only file system, and one that is written -/

/-- A host with a disk image on a read-only file system and a directory. -/
def disksHost : Host :=
  { Host.plain ⟨1000, 1000, 1000, []⟩
      [["etc"], ["etc", "stagehand"], ["image"], ["data"], ["tmp"]]
      [(["etc", "stagehand", "stagehand.yaml"], ""), (["disk"], "hsqs")] with
    restrictions := ⟨[], [["disk"]], []⟩ }

/-- A request to bind three places, two of them as images, and to write all of them. -/
def threeBinds : String :=
  "\x7b\"image\":\"/image\",\"process\":\x7b\"args\":[\"sh\"]\x7d,\"bindPaths\":[" ++
    "\x7b\"source\":\"/tmp\",\"destination\":\"/tmp\"\x7d," ++
    "\x7b\"source\":\"/disk\",\"destination\":\"/disk\",\"id\":1\x7d," ++
    "\x7b\"source\":\"/data\",\"destination\":\"/data\",\"imageSrc\":\"/\"\x7d]\x7d"

theorem prepare_threeBinds :
    ∃ c r h', LaunchConfig.parse threeBinds = .ok c ∧ c.instanceJoin = none ∧
      ((onHost disksHost false).prepare c).perform disksHost = (.ok r, h') ∧
      r.config.bindPaths = [⟨⟨"/tmp"⟩, ⟨"/tmp"⟩, false, none, none⟩,
        ⟨⟨"/proc/self/fd/4"⟩, ⟨"/disk"⟩, true, none, some 1⟩,
        ⟨⟨"/proc/self/fd/5"⟩, ⟨"/data"⟩, false, some "/", none⟩] := by
  obtain ⟨c, hparse, hc⟩ : ∃ c, LaunchConfig.parse threeBinds = .ok c ∧
      (c.instanceJoin,
        (((onHost disksHost false).prepare c).perform disksHost).1.toOption.map fun r =>
          r.config.bindPaths) =
      (none, some [⟨⟨"/tmp"⟩, ⟨"/tmp"⟩, false, none, none⟩,
        ⟨⟨"/proc/self/fd/4"⟩, ⟨"/disk"⟩, true, none, some 1⟩,
        ⟨⟨"/proc/self/fd/5"⟩, ⟨"/data"⟩, false, some "/", none⟩]) :=
    Error.exists_ok_of_map (by decide +kernel)
  obtain ⟨hfresh, hready⟩ := Prod.mk.inj hc
  obtain ⟨r, h', hrun, hr⟩ := Action.exists_perform_ok hready
  exact ⟨c, r, h', hparse, hfresh, hrun, hr⟩

theorem data_binds_correspond_threeBinds :
    ∃ c r h' disk data, LaunchConfig.parse threeBinds = .ok c ∧ c.instanceJoin = none ∧
      ((onHost disksHost false).prepare c).perform disksHost = (.ok r, h') ∧
      (r.images.filter fun image => image.usage = .data) = [disk, data] ∧
      Host.pathOfDescriptor disk.file.number = ⟨"/proc/self/fd/4"⟩ ∧ disk.writable = false ∧
      1 ≤ disk.partitions.length ∧
      Host.pathOfDescriptor data.file.number = ⟨"/proc/self/fd/5"⟩ ∧ data.writable = true := by
  obtain ⟨c, r, h', hparse, hfresh, hrun, hbinds⟩ := prepare_threeBinds
  obtain ⟨files, -, -, hhanded, -⟩ := data_binds_correspond hfresh hrun
  have hnames : r.config.bindPaths.filter BindMount.namesImage =
      [⟨⟨"/proc/self/fd/4"⟩, ⟨"/disk"⟩, true, none, some 1⟩,
        ⟨⟨"/proc/self/fd/5"⟩, ⟨"/data"⟩, false, some "/", none⟩] := by
    rw [hbinds]
    rfl
  rw [hnames] at hhanded
  obtain ⟨disk, _, ⟨hdisk, hread, hid⟩, hrest, himages⟩ := List.forall₂_cons_left_iff.mp hhanded
  obtain ⟨data, _, ⟨hdata, hwrite, -⟩, hnone, rfl⟩ := List.forall₂_cons_left_iff.mp hrest
  obtain rfl := List.forall₂_nil_left_iff.mp hnone
  exact ⟨c, r, h', disk, data, hparse, hfresh, hrun, himages, hdisk.symm, by simpa using hread,
    (hid 1 rfl).2, hdata.symm, by simpa using hwrite⟩

end Launcher
end ContainerLaunch
