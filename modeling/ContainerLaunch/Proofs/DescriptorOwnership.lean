import ContainerLaunch.Proofs.Launch.Owned
/-!
# Whose descriptors a plan keeps

A plan tells the next stage which descriptors to keep open, and the launch that goes with
it is what holds them open until then.  Both name the same descriptors, be it a new
container or a joined instance, and nothing else that was opened is left behind.
-/

namespace ContainerLaunch

/-! ## Numbers in a plan -/

theorem FuseMount.recorded_inj {m n : Nat} (hm : m < 2 ^ 32) (hn : n < 2 ^ 32)
    (hsame : recorded m = recorded n) : m = n := by
  have hbits : BitVec.ofNat 32 m = BitVec.ofNat 32 n := congrArg Int32.toBitVec hsame
  have hnat := congrArg BitVec.toNat hbits
  rwa [BitVec.toNat_ofNat, BitVec.toNat_ofNat, Nat.mod_eq_of_lt hm, Nat.mod_eq_of_lt hn] at hnat

/-- What a plan keeps of newly opened descriptors is told apart by its numbers there, as long
as they fit into a word. -/
theorem Host.Opened.nodup_kept {h h' : Host} {ds : List Descriptor} {kept : List Int32}
    (hopened : h.Opened ds h') (hkept : kept.Perm (ds.map Descriptor.recorded))
    (hroom : kept.length ≤ Plan.maxKept) (hfew : h.descriptors.length ≤ 2 ^ 31) : kept.Nodup := by
  have hcount := hkept.length_eq
  rw [List.length_map] at hcount
  have hfit : ∀ d ∈ ds, d.number < 2 ^ 32 := by
    intro d hd
    have hlt := hopened.numbers_lt d hd
    have hmax : Plan.maxKept = 1024 := rfl
    omega
  apply hkept.nodup_iff.mpr
  apply List.Nodup.map_on _ hopened.numbers_nodup.of_map
  intro d hd e he hsame
  have hnumber : d.number = e.number :=
    FuseMount.recorded_inj (hfit d hd) (hfit e he) hsame
  exact List.inj_on_of_nodup_map hopened.numbers_nodup hd he hnumber

namespace FuseMount

variable {device : Path} {h h' : Host} {mounts done : List FuseMount} {files : List OpenFile}

theorem HandlesOf.of_lasting (hhandles : HandlesOf device h mounts done files)
    (hlast : h'.lasting = h.lasting) : HandlesOf device h' mounts done files where
  mounts_eq := hhandles.mounts_eq
  length_eq := hhandles.length_eq
  opened := by
    intro f hf
    obtain ⟨h₁, hsame, hfound⟩ := hhandles.opened f hf
    exact ⟨h₁, hsame.trans hlast.symm, hfound⟩

theorem HandlesOf.fd_eq (hhandles : HandlesOf device h mounts done files) {m : FuseMount}
    (hm : m ∈ done) : ∃ f ∈ files, m.fd = some (recorded f.number) := by
  rw [hhandles.mounts_eq, ← List.map_uncurry_zip_eq_zipWith] at hm
  obtain ⟨⟨mount, f⟩, hpair, rfl⟩ := List.mem_map.mp hm
  exact ⟨f, (List.of_mem_zip hpair).2, rfl⟩

end FuseMount

/-! ## What a launch owns -/

namespace ReadyLaunch

/-- The descriptors that a launch holds open: those of its images, of its files and of its
socket pair. -/
def owned (r : ReadyLaunch) : List Descriptor :=
  (r.images.map fun i => i.file.tableEntry) ++ r.held.map OpenFile.tableEntry ++
    [⟨r.socketPair.1, .socket, true⟩, ⟨r.socketPair.2, .socket, true⟩]

/-- A launch for which exactly its own descriptors were opened since a host was as it was, and
whose plan keeps exactly these.  Descriptor numbers are signed words of 32 bits, so no
process has more than `2 ^ 31` of them open; up to there no two of them look the same
in a plan. -/
structure Accounted (l : Launcher) (c : LaunchConfig) (h : Host) (r : ReadyLaunch) (h' : Host) :
    Prop where
  table_perm : h'.descriptors.Perm (h.descriptors ++ r.owned)
  still_open : ∀ d ∈ r.owned, h'.descriptor? d.number = some d
  numbers_nodup : (r.owned.map Descriptor.number).Nodup
  kept_perm : r.plan.keptDescriptors.Perm (r.owned.map Descriptor.recorded)
  kept_nodup : h.descriptors.length ≤ 2 ^ 31 → r.plan.keptDescriptors.Nodup
  kept_length : r.plan.keptDescriptors.length ≤ Plan.maxKept
  image_kept : ∃ fd, r.plan.imageFd = some fd ∧ fd ∈ r.plan.keptDescriptors
  workingDirectory_kept : ∀ fd, r.plan.workingDirectoryFd = some fd →
    fd ∈ r.plan.keptDescriptors
  socketPair_kept : ∃ a b, r.config.unixSocketPair = some (a, b) ∧
    a ∈ r.plan.keptDescriptors ∧ b ∈ r.plan.keptDescriptors
  fuse_handles : ∃ others handles, r.held = others ++ handles ∧
    FuseMount.HandlesOf l.fuseDevice h' c.fuseMounts r.config.fuseMounts handles
  fuse_kept : ∀ m ∈ r.config.fuseMounts, ∃ fd, m.fd = some fd ∧ fd ∈ r.plan.keptDescriptors

end ReadyLaunch

namespace Launcher

variable {l : Launcher} {c : LaunchConfig} {d : Draft} {h h₁ h' : Host} {r : ReadyLaunch}

/-- The handles of FUSE mounts are held like any other file. -/
theorem accounted_handles {handles : FuseDescriptors} (hacc : d.Accounted h h₁)
    (hopened : h₁.Opened (handles.files.map OpenFile.tableEntry) h') :
    ((mounting (l.settle d) handles.mounts).holding handles.files).Accounted h h' := by
  have hsettled : (mounting (l.settle d) handles.mounts).Accounted h h₁ :=
    hacc.of_same ⟨rfl, rfl, rfl, rfl, rfl⟩ rfl
  exact hsettled.holding hopened

/-- With a socket pair, a launch owns what its draft has and the two ends. -/
theorem owned_readyWith {ends : Nat × Nat} (hacc : d.Accounted h h₁)
    (hpair : Action.socketPair.perform h₁ = (.ok ends, h')) :
    h.Opened (readyWith d ends).owned h' ∧
      (readyWith d ends).plan.keptDescriptors.Perm
        ((readyWith d ends).owned.map Descriptor.recorded) := by
  refine ⟨hacc.opened.trans (Action.socketPair_opened hpair), ?_⟩
  have howned : (readyWith d ends).owned.map Descriptor.recorded =
      d.owned.map Descriptor.recorded ++
        [FuseMount.recorded ends.1, FuseMount.recorded ends.2] :=
    List.map_append
  rw [howned]
  exact hacc.kept_perm.append_right _

/-- A launch that is ready, be it a new container or a joined instance, has opened what it
owns and nothing else, and its plan keeps what it owns and nothing else: in particular
the image, the working directory, both ends of the socket pair and one handle of the
FUSE device for each FUSE mount of the request. -/
theorem prepare_accounted (hrun : (l.prepare c).perform h = (.ok r, h')) :
    r.Accounted l c h h' := by
  obtain ⟨files, -, hsteps⟩ := prepare_ok.mp hrun
  obtain ⟨-, d, h₁, handles, h₂, ends, hcontainer, hopen, hroom, hpair, rfl⟩ :=
    prepareWith_ok hsteps
  obtain ⟨hacc, ⟨image, himage⟩, hmounts⟩ := accounted_container hcontainer
  obtain ⟨hhandles, hfuse⟩ := FuseMount.openAll_ok hopen
  have hheld := accounted_handles (l := l) hacc hfuse
  obtain ⟨hopened, hkept⟩ := owned_readyWith hheld hpair
  have howned : ∀ e ∈ (closed l d handles ends).owned,
      e.recorded ∈ (closed l d handles ends).plan.keptDescriptors := by
    intro e he
    exact hkept.mem_iff.mpr (List.mem_map_of_mem he)
  have hlength : (closed l d handles ends).plan.keptDescriptors.length ≤ Plan.maxKept := by
    simpa [closed, readyWith, Draft.holding, Draft.keeping, mounting, settle, Nat.add_assoc]
      using hroom
  refine
    { table_perm := hopened.descriptors_perm
      still_open := fun e he => hopened.descriptor?_eq he
      numbers_nodup := hopened.numbers_nodup
      kept_perm := hkept
      kept_nodup := hopened.nodup_kept hkept hlength
      kept_length := hlength
      image_kept := ⟨image, himage, ?_⟩
      workingDirectory_kept := ?_
      socketPair_kept := ⟨_, _, rfl, howned ⟨ends.1, .socket, true⟩ ?_,
        howned ⟨ends.2, .socket, true⟩ ?_⟩
      fuse_handles := ⟨d.held, handles.files, rfl, ?_⟩
      fuse_kept := ?_ }
  · exact List.mem_append_left _ (hheld.imageFd_kept image himage)
  · intro fd hfd
    exact List.mem_append_left _ (hheld.workingDirectory_kept fd hfd)
  · exact List.mem_append_right _ List.mem_cons_self
  · exact List.mem_append_right _ (List.mem_cons_of_mem _ (List.mem_singleton_self _))
  · have hlast : h'.lasting = h₁.lasting :=
      (Action.quiet_socketPair.lasting_eq hpair).trans
        ((FuseMount.quiet_openAll _ _ _ _ _).lasting_eq hopen)
    rw [← hmounts]
    exact hhandles.of_lasting hlast
  · intro m hm
    obtain ⟨f, hf, hfd⟩ := hhandles.fd_eq hm
    refine ⟨_, hfd, howned f.tableEntry ?_⟩
    exact List.mem_append_left _ (List.mem_append_right _
      (List.mem_map_of_mem (List.mem_append_right _ hf)))

/-- A host with the directory of an image and a FUSE device. -/
def fuseHost : Host :=
  .plain ⟨1000, 1000, 1000, []⟩ [["etc"], ["etc", "stagehand"], ["image"], ["dev"]]
    [(["etc", "stagehand", "stagehand.yaml"], ""), (["dev", "fuse"], "")]

/-- A request with one FUSE mount. -/
def oneFuseMount : String :=
  "\x7b\"image\":\"/image\",\"process\":\x7b\"args\":[\"sh\"]\x7d," ++
    "\"fuseMounts\":[\x7b\"mountPoint\":\"/mnt\"\x7d]\x7d"

/-- The image, the handle of the FUSE device and the socket pair. -/
theorem prepare_accounted_oneFuseMount :
    ∃ c r h', LaunchConfig.parse oneFuseMount = .ok c ∧
      ((onHost fuseHost false).prepare c).perform fuseHost = (.ok r, h') ∧
      r.plan.keptDescriptors = [3, 4, 5, 6] ∧ r.plan.keptDescriptors.Nodup ∧
      r.Accounted (onHost fuseHost false) c fuseHost h' ∧
      ∃ m ∈ r.config.fuseMounts, m.fd = some 4 := by
  obtain ⟨c, hparse, hc⟩ : ∃ c, LaunchConfig.parse oneFuseMount = .ok c ∧
      (((onHost fuseHost false).prepare c).perform fuseHost).1.toOption.map
        (fun r => (r.plan.keptDescriptors, r.config.fuseMounts.map FuseMount.fd)) =
      some ([3, 4, 5, 6], [some 4]) :=
    Error.exists_ok_of_map (by decide +kernel)
  obtain ⟨r, h', hrun, hready⟩ := Action.exists_perform_ok hc
  simp only [Prod.mk.injEq] at hready
  obtain ⟨hkept, hhandles⟩ := hready
  have hacc : r.Accounted (onHost fuseHost false) c fuseHost h' := prepare_accounted hrun
  have hmount : some 4 ∈ r.config.fuseMounts.map FuseMount.fd := by
    rw [hhandles]
    exact List.mem_singleton_self _
  obtain ⟨m, hm, hfd⟩ := List.mem_map.mp hmount
  exact ⟨c, r, h', hparse, hrun, hkept, hacc.kept_nodup (by decide), hacc, m, hm, hfd⟩

end Launcher
end ContainerLaunch
