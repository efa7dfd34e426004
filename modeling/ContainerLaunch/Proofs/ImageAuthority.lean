import ContainerLaunch.Proofs.ImageList
/-!
# Which images a container may use

The policy limits where images lie, who owns them and of which format they are.  Every
image of a container that is ready keeps within all of these limits, whichever way it
came into the stack, and what they are checked against is what was opened.
-/

namespace ContainerLaunch

/-! ## Owners by number or name -/

namespace Directory

/-- An entry of a list names a user: by number, or else by a name in the database. -/
def NamesUser (d : Directory) (entry : String) (uid : UInt32) : Prop :=
  Text.u32? (Text.trim entry) = some uid ∨
    Text.u32? (Text.trim entry) = none ∧
      ∃ user, d.userByName (Text.trim entry) = some user ∧ user.uid = uid

/-- An entry of a list names a group: by number, or else by a name in the database. -/
def NamesGroup (d : Directory) (entry : String) (gid : UInt32) : Prop :=
  Text.u32? (Text.trim entry) = some gid ∨
    Text.u32? (Text.trim entry) = none ∧
      ∃ group, d.groupByName (Text.trim entry) = some group ∧ group.gid = gid

end Directory

namespace Image

variable {p : Policy} {d : Directory} {inspect : SifReader} {i : Image}

theorem namesOwner_iff {uid : UInt32} {entry : String} :
    namesOwner d uid entry = true ↔ d.NamesUser entry uid := by
  unfold namesOwner Directory.NamesUser
  cases hnumber : Text.u32? (Text.trim entry) with
  | some id => simp [hnumber]
  | none => simp [hnumber, Option.any_eq_true]

theorem namesGroup_iff {gid : UInt32} {entry : String} :
    namesGroup d gid entry = true ↔ d.NamesGroup entry gid := by
  unfold namesGroup Directory.NamesGroup
  cases hnumber : Text.u32? (Text.trim entry) with
  | some id => simp [hnumber]
  | none => simp [hnumber, Option.any_eq_true]

/-! ## Formats -/

/-- Whether the first partition for the root file system is encrypted. -/
def RootEncrypted (i : Image) : Prop :=
  ∃ before part after, i.partitions = before ++ part :: after ∧
    (∀ q ∈ before, q.role ≠ .primary) ∧ part.role = .primary ∧ part.fs = .encrypted

theorem hasEncryptedRoot_iff : i.hasEncryptedRoot = true ↔ i.RootEncrypted := by
  unfold hasEncryptedRoot Partition.hasEncryptedRoot Partition.root? RootEncrypted
  rw [Option.any_eq_true]
  constructor
  · rintro ⟨part, hroot, hfs⟩
    obtain ⟨hprimary, before, after, hsplit, hbefore⟩ := List.find?_eq_some_iff_append.mp hroot
    refine ⟨before, part, after, hsplit, ?_, by simpa using hprimary, by simpa using hfs⟩
    intro q hq
    simpa using hbefore q hq
  · rintro ⟨before, part, after, hsplit, hbefore, hprimary, hfs⟩
    refine ⟨part, List.find?_eq_some_iff_append.mpr ⟨by simpa using hprimary, before, after,
      hsplit, ?_⟩, by simpa using hfs⟩
    intro q hq
    simpa using hbefore q hq

/-- Whether a policy allows the format of an image. -/
def FormatAllowed (p : Policy) (i : Image) : Prop :=
  match i.format with
  | .squashfs => p.allowSquashfs = true
  | .ext3 => p.allowExtfs = true
  | .sandbox => p.allowSandbox = true
  | .sif | .ociSif =>
    (i.RootEncrypted → p.allowEncrypted = true) ∧ (¬ i.RootEncrypted → p.allowSif = true)

theorem formatAllowed_ok :
    formatAllowed p i.format i.hasEncryptedRoot = .ok () ↔ i.FormatAllowed p := by
  have hsif : ∀ {format : ImageFormat}, format = .sif ∨ format = .ociSif →
      (formatAllowed p format i.hasEncryptedRoot = .ok () ↔
        (i.RootEncrypted → p.allowEncrypted = true) ∧
          (¬ i.RootEncrypted → p.allowSif = true)) := by
    intro format hformat
    rw [← hasEncryptedRoot_iff]
    rcases hformat with rfl | rfl
    · cases hroot : i.hasEncryptedRoot <;> simp [formatAllowed]
    · cases hroot : i.hasEncryptedRoot <;> simp [formatAllowed]
  unfold FormatAllowed
  cases i.format with
  | squashfs => simp [formatAllowed]
  | ext3 => simp [formatAllowed]
  | sandbox => simp [formatAllowed]
  | sif => exact hsif (Or.inl rfl)
  | ociSif => exact hsif (Or.inr rfl)

/-! ## The policy as a whole -/

/-- An image within all limits that a policy sets. -/
structure AllowedBy (p : Policy) (d : Directory) (i : Image) : Prop where
  path : p.limitPaths ≠ [] → ∃ base ∈ p.limitPaths, base.components <+: i.path.components
  group : p.limitGroups ≠ [] → ∃ entry ∈ p.limitGroups, d.NamesGroup entry i.file.inode.gid
  owner : p.limitOwners ≠ [] → ∃ entry ∈ p.limitOwners, d.NamesUser entry i.file.inode.uid
  format : i.FormatAllowed p

/-- Of a list that is empty or of which some entry matches, nothing is forbidden. -/
theorem not_limited_iff {α : Type} {limits : List α} {test : α → Bool} :
    ¬ (!limits.isEmpty && !limits.any test) = true ↔
      (limits ≠ [] → ∃ entry ∈ limits, test entry = true) := by
  rw [← List.any_eq_true]
  cases limits with
  | nil => simp
  | cons first rest =>
      generalize (first :: rest).any test = found
      cases found <;> simp

theorem checkPolicy_ok_iff : checkPolicy p d i = .ok () ↔ AllowedBy p d i := by
  have hrefused : ∀ {q : Prop} [Decidable q] {e : Error} {x : Except Error Unit},
      (if q then .error e else x) = .ok () ↔ ¬ q ∧ x = .ok () := by
    intro q _ e x
    by_cases hq : q
    · simp [hq]
    · simp [hq]
  unfold checkPolicy
  rw [hrefused, hrefused, hrefused, not_limited_iff, not_limited_iff, not_limited_iff,
    formatAllowed_ok]
  simp only [Path.isWithin_iff, namesGroup_iff, namesOwner_iff]
  constructor
  · rintro ⟨hpath, hgroup, howner, hformat⟩
    exact ⟨hpath, hgroup, howner, hformat⟩
  · rintro ⟨hpath, hgroup, howner, hformat⟩
    exact ⟨hpath, hgroup, howner, hformat⟩

theorem OpenedFor.allowedBy {h : Host} {role : ImageRole} {path : Path} {writable : Bool}
    (hopened : OpenedFor p inspect h role path writable i) : AllowedBy p h.users i :=
  checkPolicy_ok_iff.mp hopened.allowed

/-! ## What the limits are checked against -/

/-- An image that is what a path led to when it was opened. -/
structure FoundAt (inspect : SifReader) (h : Host) (p : Path) (i : Image) : Prop where
  opened : ∃ (h₁ : Host) (access : Access), h₁.lasting = h.lasting ∧
    h₁.opening access p = .ok (i.file.place, i.file.inode)
  path_eq : i.path = pathOf i.file
  contents : Contents inspect i.file i.format i.partitions

theorem OpenedFor.foundAt {h : Host} {role : ImageRole} {path : Path} {writable : Bool}
    (hopened : OpenedFor p inspect h role path writable i) : FoundAt inspect h path i := by
  obtain ⟨h₀, h₁, loaded, hlast, hload, rfl⟩ := hopened
  obtain ⟨opened, h₂, hopen, himage, -⟩ := load_ok.mp hload
  obtain ⟨access, ns, hfile⟩ := openFallback_ok hopen
  obtain ⟨hopening, -, -⟩ := Action.perform_openFile_ok.mp hfile
  obtain ⟨hof, -⟩ := ofOpenFile_ok himage
  have hfile := hof.file_eq
  refine ⟨⟨h₀.tellAll ns, access, hlast, ?_⟩, ?_, ?_⟩
  · change _ = Except.ok (loaded.file.place, loaded.file.inode)
    rw [hfile]
    exact hopening
  · change loaded.path = pathOf loaded.file
    rw [hfile]
    exact hof.path_eq
  · change Contents inspect loaded.file loaded.format loaded.partitions
    rw [hfile]
    exact hof.contents

end Image

namespace Launcher

variable {l : Launcher} {c : LaunchConfig} {h h' : Host} {r : ReadyLaunch}

/-- The images of a new container that is ready are the root image, the overlays and the
images of bind mounts.  Each was opened at the path that the request gives for it, has
the format of what was opened there, and keeps within all limits of the policy. -/
theorem images_authorized (hfresh : c.instanceJoin = none)
    (hrun : (l.prepare c).perform h = (.ok r, h')) :
    ∃ files root overlays binds, l.loadPolicy c h = .ok files ∧
      r.images = root :: overlays ++ binds ∧
      root.FoundAt l.inspect h c.image ∧
      List.Forall₂ (fun spec image => Image.FoundAt l.inspect h spec.path image)
        (Draft.overlaySpecs r.config) overlays ∧
      List.Forall₂ (fun b image => Image.FoundAt l.inspect h b.source image)
        (c.bindPaths.filter BindMount.namesImage) binds ∧
      ∀ i ∈ r.images, i.AllowedBy files.policy h.users := by
  obtain ⟨-, files, root, overlays, binds, hfiles, himages, hroot, hoverlays, hbinds⟩ :=
    fresh_imageList hfresh hrun
  refine ⟨files, root, overlays, binds, hfiles, himages, hroot.foundAt, ?_, ?_, ?_⟩
  · exact hoverlays.imp fun _ _ hopened => hopened.foundAt
  · exact hbinds.imp fun _ _ hopened => hopened.foundAt
  · intro i hi
    rw [himages, List.cons_append, List.mem_cons, List.mem_append] at hi
    rcases hi with rfl | hi | hi
    · exact hroot.allowedBy
    · obtain ⟨spec, hopened⟩ := Image.exists_of_mem_of_forall₂ hoverlays hi
      exact hopened.allowedBy
    · obtain ⟨b, hopened⟩ := Image.exists_of_mem_of_forall₂ hbinds hi
      exact hopened.allowedBy

/-! ## A stack within limits -/

/-- A host whose policy wants images to lie in one directory and to belong to a user and a
group that it names. -/
def limitsHost : Host :=
  { Host.plain ⟨1000, 1000, 1000, []⟩
      [["etc"], ["etc", "stagehand"], ["srv"], ["srv", "image"]]
      [(["etc", "stagehand", "stagehand.yaml"],
          "limit-container-paths: [/srv]\nlimit-container-owners: [' root']\n" ++
            "limit-container-groups: ['0']\n"),
        (["srv", "data"], "hsqs")] with
    users := ⟨[⟨"root", 0, 0, "root", "/root", "/bin/sh"⟩], []⟩ }

/-- A request for a sandbox with a bare file system bound into it. -/
def sandboxWithData : String :=
  "\x7b\"image\":\"/srv/image\",\"process\":\x7b\"args\":[\"sh\"]\x7d,\"bindPaths\":[" ++
    "\x7b\"source\":\"/srv/data\",\"destination\":\"/data\",\"imageSrc\":\"/\"\x7d]\x7d"

theorem images_authorized_sandboxWithData :
    ∃ c r h' files, c.instanceJoin = none ∧
      ((onHost limitsHost false).prepare c).perform limitsHost = (.ok r, h') ∧
      (onHost limitsHost false).loadPolicy c limitsHost = .ok files ∧
      r.images.map Image.format = [.sandbox, .squashfs] ∧
      files.policy.limitOwners = [" root"] ∧
      ∀ i ∈ r.images, i.AllowedBy files.policy limitsHost.users := by
  obtain ⟨c, -, hc⟩ : ∃ c, LaunchConfig.parse sandboxWithData = .ok c ∧
      (c.instanceJoin,
        ((onHost limitsHost false).loadPolicy c limitsHost).toOption.map
          fun files => files.policy.limitOwners,
        (((onHost limitsHost false).prepare c).perform limitsHost).1.toOption.map
          fun r => r.images.map Image.format) =
      (none, some [" root"], some [.sandbox, .squashfs]) :=
    Error.exists_ok_of_map (by decide +kernel)
  simp only [Prod.mk.injEq] at hc
  obtain ⟨hfresh, hfiles, hready⟩ := hc
  obtain ⟨files, hfiles, hlimits⟩ := Error.exists_ok_of_map hfiles
  obtain ⟨r, h', hrun, hformats⟩ := Action.exists_perform_ok hready
  obtain ⟨files', root, overlays, binds, hfiles', -, -, -, -, hallowed⟩ :=
    images_authorized hfresh hrun
  cases Except.ok.inj (hfiles'.symm.trans hfiles)
  exact ⟨c, r, h', files, hfresh, hrun, hfiles, hformats, hlimits, hallowed⟩

end Launcher
end ContainerLaunch
