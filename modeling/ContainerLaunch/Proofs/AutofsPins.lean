import ContainerLaunch.Proofs.CanonicalPaths
import ContainerLaunch.Proofs.DataBinds
import ContainerLaunch.Proofs.Launch.Owned
/-!
# What a new container keeps open below autofs mounts

A new container needs some of the host's directories: those that are bound into it, by the caller
or by the policy, the home and the current directory, or the working directory if it is to be
contained.  Of these the ones at or below autofs mount points are opened once its images are
there, in order, and they are all that is kept between the images and the handles of FUSE mounts.
Nothing of this can end a launch, unless it keeps too many descriptors.
-/

namespace ContainerLaunch

/-! ## What a container needs -/

/-- What a bind mount of the policy binds: all of the entry up to the first colon, if that is
anything. -/
def Policy.boundPath (entry : String) : Option Path :=
  let source := entry.toList.takeWhile fun c => c != ':'
  if source = [] then none else some ⟨String.ofList source⟩

/-- What a new container in a directory needs from the directories of the host, in order. -/
def LaunchConfig.neededPaths (c : LaunchConfig) (policy : Policy) (directory : Path) : List Path :=
  (if policy.userBindControl then
    (c.bindPaths.filter fun b => !b.namesImage).map BindMount.source else []) ++
  if c.contain then c.workdir.toList
  else policy.bindPath.filterMap Policy.boundPath ++ c.homeSource.toList ++ [directory]

namespace Text

theorem head?_piecesOf (sep : Char) (cs : List Char) :
    (piecesOf sep cs).head? = some (cs.takeWhile fun c => c != sep) := by
  induction cs with
  | nil => rfl
  | cons c rest ih =>
      by_cases hc : c = sep
      · simp [piecesOf, hc]
      · cases hpieces : piecesOf sep rest with
        | nil => simp [hpieces] at ih
        | cons piece more =>
            rw [hpieces] at ih
            have hpiece : piece = rest.takeWhile fun c => c != sep := Option.some.inj ih
            simp [piecesOf, hc, hpieces, hpiece]

end Text

namespace BindMount.HandedOn

variable {policy : Policy} {inspect : SifReader} {h : Host} {bs bs' : List BindMount}
  {images : List Image}

/-- Bind mounts that name no image are handed on as they are. -/
theorem plain_eq (hall : HandedOn policy inspect h bs bs' images) :
    (bs'.filter fun b => !b.namesImage) = bs.filter fun b => !b.namesImage := by
  induction hall with
  | nil => rfl
  | plain hplain _ ih => simp [hplain, ih]
  | @image b b' i _ _ _ hb _ ih =>
      have hnames : b'.namesImage = true := by
        rw [hb.handed]
        exact hb.names
      simp [hb.names, hnames, ih]

end BindMount.HandedOn

/-- In a process that stands in a directory a file is pinned at the place that its canonical path
names. -/
theorem Autofs.PinnedAs.path_eq {points : List Path} {h : Host} {source resolved : Path}
    {f : OpenFile} (hpin : PinnedAs points h source resolved f) (hstands : h.StandsInDirectory) :
    f.place.path = resolved := by
  have hcanonical := hpin.canonical
  unfold Host.canonical at hcanonical
  cases hfind : h.find source with
  | error cause =>
      rw [hfind] at hcanonical
      cases hcanonical
  | ok found =>
      obtain ⟨place, inode⟩ := found
      rw [hfind] at hcanonical
      obtain rfl : place.path = resolved := Except.ok.inj hcanonical
      have hplace := (Host.find_ok.mp hfind).1
      -- the canonical path leads back to the place that the needed one leads to
      rw [Host.resolve_path (Host.reached_of_resolve hstands.somewhere hplace)
        (Host.settled_of_resolve hstands hplace) (Host.resolve_of_opening hpin.opened)]

namespace Draft

variable {l : Launcher} {policy : Policy} {d d' : Draft} {h h' : Host}

theorem bindSource_eq (entry : String) : bindSource entry = Policy.boundPath entry := by
  have hhead := Text.head?_piecesOf ':' entry.toList
  unfold bindSource Policy.boundPath Text.pieces
  cases hpieces : Text.piecesOf ':' entry.toList with
  | nil => simp [hpieces] at hhead
  | cons piece more =>
      rw [hpieces] at hhead
      have hpiece : piece = entry.toList.takeWhile fun c => c != ':' := Option.some.inj hhead
      have hempty : String.ofList piece = "" ↔ piece = [] := by
        rw [← String.toList_inj, String.toList_ofList]
        rfl
      simp only [List.map_cons, hempty, ← hpiece]

/-- What is looked at for autofs is what the container needs. -/
theorem autofsCandidates_eq {c : LaunchConfig} {directory : Path}
    (hdirectory : c.cwd = some directory) :
    autofsCandidates policy c = c.neededPaths policy directory := by
  have hbound : bindSource = Policy.boundPath := funext bindSource_eq
  simp only [autofsCandidates, LaunchConfig.neededPaths, hdirectory, hbound, Option.toList]

/-- Images change nothing about what the container needs. -/
theorem autofsCandidates_withImages (hrun : (d.withImages l policy).perform h = (.ok d', h'))
    (hnone : d.images = []) (p : Policy) :
    autofsCandidates p d'.config = autofsCandidates p d.config := by
  have hplain := (withImages_handedOn hrun hnone).plain_eq
  obtain ⟨outcome, root, overlays, binds, bindPaths, entered, -, henter, rfl⟩ :=
    withImages_ok hrun
  simp only [withEntries, henter.same.1] at hplain ⊢
  simp only [autofsCandidates, hplain]
  rfl

end Draft

namespace Launcher

variable {l : Launcher} {c : LaunchConfig} {h h' h₁ : Host} {r : ReadyLaunch}
  {files : AdminFiles} {stack : Draft}

/-- The draft of a new container with its images. -/
def stacked (l : Launcher) (files : AdminFiles) (c : LaunchConfig) (h : Host) : Action Draft := do
  let targetIds := Draft.asksForTarget c l.facts.caller
  let d ← (opening l c h).withUserInfo l.facts.caller targetIds
  let d ← d.fresh l files targetIds
  d.withImages l files.policy

/-- What is left to be done for a draft of a container. -/
def closing (l : Launcher) (files : AdminFiles) (d : Draft) : Action ReadyLaunch := do
  finish (← l.withFuse files.policy (l.settle d))

/-- A draft that has its images still needs what the request needs. -/
theorem needs_stacked
    (hstack : (l.stacked files c h).perform (opened l c h) = (.ok stack, h₁)) :
    Draft.autofsCandidates files.policy stack.config =
        c.neededPaths files.policy (Draft.directoryOf c h) ∧
      stack.config.fuseMounts = c.fuseMounts ∧ h₁.lasting = h.lasting := by
  obtain ⟨d₀, h₀, huser, hstack⟩ := Action.perform_bind_ok.mp hstack
  rw [Draft.perform_withUserInfo] at huser
  cases huser
  obtain ⟨d₁, h₂, hmade, himages⟩ := Action.perform_bind_ok.mp hstack
  have hfirst : h₂.lasting = (opened l c h).lasting :=
    (Draft.quiet_fresh _ _ _ _).lasting_eq hmade
  have hlast : h₁.lasting = h.lasting :=
    (((Draft.quiet_withImages _ _ _).lasting_eq himages).trans hfirst).trans
      (lasting_opened l c h)
  obtain ⟨-, -, maps, seccomp, -, -, rfl, -⟩ := Draft.fresh_ok.mp hmade
  have hneeds := Draft.autofsCandidates_withImages himages
    (by rw [Draft.freshWith_images]; exact opening_images l c h) files.policy
  refine ⟨hneeds.trans ?_, (Draft.fuseMounts_withImages himages).trans ?_, hlast⟩
  · rw [Draft.freshWith_config]
    simp only [Draft.withUser]
    rw [opening_config]
    exact Draft.autofsCandidates_eq rfl
  · rw [Draft.freshWith_config]
    simp only [Draft.withUser]
    rw [opening_config]

theorem container_eq_stacked (hfresh : c.instanceJoin = none) :
    l.container files c (opening l c h) =
      l.stacked files c h >>= fun d => d.withAutofs l files.policy := by
  rw [container_eq_draftFresh (by rw [hfresh]; rfl), draftFresh, stacked]
  simp only [bind_assoc]

/-- A new container that is ready had its images. -/
theorem stacked_of_prepare (hfresh : c.instanceJoin = none)
    (hrun : (l.prepare c).perform h = (.ok r, h')) :
    ∃ files stack h₁, l.loadPolicy c h = .ok files ∧ c.process.args ≠ [] ∧
      (l.stacked files c h).perform (opened l c h) = (.ok stack, h₁) := by
  obtain ⟨files, hfiles, hsteps⟩ := prepare_ok.mp hrun
  obtain ⟨hargs, d, h₁, -, -, -, hcontainer, -⟩ := prepareWith_ok hsteps
  rw [container_eq_stacked hfresh] at hcontainer
  obtain ⟨stack, h₂, hstack, -⟩ := Action.perform_bind_ok.mp hcontainer
  exact ⟨files, stack, h₂, hfiles, hargs, hstack⟩

/-- The closing steps add the handles of FUSE mounts to what is held, one for each, and drop no
descriptor. -/
theorem closing_ok {d : Draft} (hrun : (l.closing files d).perform h = (.ok r, h')) :
    ∃ handles, r.held = d.held ++ handles ∧ handles.length = d.config.fuseMounts.length ∧
      ∀ fd ∈ d.plan.keptDescriptors, fd ∈ r.plan.keptDescriptors := by
  obtain ⟨d₁, h₁, hfuse, hfinish⟩ := Action.perform_bind_ok.mp hrun
  obtain ⟨handles, hopen, rfl⟩ := withFuse_ok hfuse
  obtain ⟨-, ends, -, rfl⟩ := finish_ok hfinish
  refine ⟨handles.files, rfl, (FuseMount.openAll_ok hopen).1.length_eq, ?_⟩
  intro fd hfd
  exact List.mem_append_left _ (List.mem_append_left _ hfd)

/-- A launch of a new container whose images are there goes on with what is pinned: if there is
room for it, only the closing steps are left. -/
theorem result_of_stacked (hfresh : c.instanceJoin = none) (hfiles : l.loadPolicy c h = .ok files)
    (hargs : c.process.args ≠ [])
    (hstack : (l.stacked files c h).perform (opened l c h) = (.ok stack, h₁)) :
    ∃ pinned h₂, Autofs.Pins (Autofs.seenPoints h₁ l.facts.mountTable) h₁
        (c.neededPaths files.policy (Draft.directoryOf c h)) pinned h₂ ∧
      ((l.prepare c).perform h).1 = ((Action.ofExcept (stack.keepFiles pinned) >>=
        l.closing files).perform h₂).1 := by
  obtain ⟨pinned, h₂, hpins, hautofs⟩ :=
    Draft.perform_withAutofs l files.policy stack h₁
  rw [(needs_stacked hstack).1] at hpins
  refine ⟨pinned, h₂, hpins, ?_⟩
  have hsome : ¬ c.process.args.isEmpty = true := by simpa using hargs
  rw [result_of_loadPolicy_ok hfiles, perform_prepareWith, if_neg hsome,
    container_eq_stacked hfresh, bind_assoc, Action.perform_bind, hstack]
  simp only [Action.perform_bind, hautofs, Action.perform_ofExcept]
  cases stack.keepFiles pinned with
  | error e => rfl
  | ok d => simp only [closing, Action.perform_bind]

/-- In a launch of a new container what is pinned comes right after what its images keep open
and right before the handles of its FUSE mounts.  It is one descriptor for each path that the
container needs, leads to an autofs mount point or below one and can be opened, in order, and
all of these descriptors are kept by the plan; a process that stands in a directory has each of
them open where the canonical path of the needed one leads.  Whatever the container needs and
whatever the table of mounts is, a launch that has its images goes on to its closing steps,
unless more is pinned than a plan has room for. -/
theorem autofs_pinned_exactly (hfresh : c.instanceJoin = none) :
    (∀ r h', (l.prepare c).perform h = (.ok r, h') →
      ∃ files stack h₁ pinned h₂ handles, l.loadPolicy c h = .ok files ∧
        (l.stacked files c h).perform (opened l c h) = (.ok stack, h₁) ∧
        h₁.lasting = h.lasting ∧
        Autofs.Pins (Autofs.seenPoints h₁ l.facts.mountTable) h₁
          (c.neededPaths files.policy (Draft.directoryOf c h)) pinned h₂ ∧
        r.held = stack.held ++ pinned ++ handles ∧ handles.length = c.fuseMounts.length ∧
        (∀ f ∈ pinned, Draft.descriptor f ∈ r.plan.keptDescriptors) ∧
        (h.StandsInDirectory → ∀ f ∈ pinned,
          ∃ source ∈ c.neededPaths files.policy (Draft.directoryOf c h), ∃ h₀ : Host,
            h₀.lasting = h.lasting ∧ h₀.canonical source = .ok f.place.path)) ∧
    (∀ files stack h₁, l.loadPolicy c h = .ok files → c.process.args ≠ [] →
      (l.stacked files c h).perform (opened l c h) = (.ok stack, h₁) →
      ∃ pinned h₂, Autofs.Pins (Autofs.seenPoints h₁ l.facts.mountTable) h₁
          (c.neededPaths files.policy (Draft.directoryOf c h)) pinned h₂ ∧
        (((l.prepare c).perform h).1 =
            ((l.closing files (stack.holding pinned)).perform h₂).1 ∨
          pinned ≠ [] ∧ Plan.maxKept < stack.plan.keptDescriptors.length + pinned.length ∧
            ((l.prepare c).perform h).1 = .error Plan.tooManyKept)) := by
  constructor
  · intro r h' hrun
    obtain ⟨files, stack, h₁, hfiles, hargs, hstack⟩ := stacked_of_prepare hfresh hrun
    obtain ⟨-, hmounts, hlast⟩ := needs_stacked hstack
    obtain ⟨pinned, h₂, hpins, hresult⟩ := result_of_stacked hfresh hfiles hargs hstack
    rw [hrun] at hresult
    obtain ⟨h₃, hrest⟩ : ∃ h₃, (Action.ofExcept (stack.keepFiles pinned) >>=
        l.closing files).perform h₂ = (.ok r, h₃) := by
      refine ⟨_, Prod.ext ?_ rfl⟩
      exact hresult.symm
    obtain ⟨d, hkeep, hclosing⟩ := Action.perform_ofExcept_bind_ok.mp hrest
    obtain ⟨-, rfl⟩ := Draft.keepFiles_ok.mp hkeep
    obtain ⟨handles, hheld, hlength, hkept⟩ := closing_ok hclosing
    refine ⟨files, stack, h₁, pinned, h₂, handles, hfiles, hstack, hlast, hpins, hheld,
      hlength.trans (congrArg _ hmounts), ?_, ?_⟩
    · intro f hf
      exact hkept _ (List.mem_append_right _ (List.mem_map_of_mem hf))
    · intro hstands f hf
      obtain ⟨source, hsource, resolved, h₀, hlast₀, hpin⟩ := hpins.exists_pinnedAs hf
      have hsame := hlast₀.trans hlast
      refine ⟨source, hsource, h₀, hsame, ?_⟩
      rw [hpin.path_eq (hstands.of_lasting hsame)]
      exact hpin.canonical
  · intro files stack h₁ hfiles hargs hstack
    obtain ⟨pinned, h₂, hpins, hresult⟩ := result_of_stacked hfresh hfiles hargs hstack
    refine ⟨pinned, h₂, hpins, ?_⟩
    cases hkeep : stack.keepFiles pinned with
    | ok d =>
        obtain ⟨-, rfl⟩ := Draft.keepFiles_ok.mp hkeep
        rw [hkeep] at hresult
        exact Or.inl hresult
    | error e =>
        obtain rfl := Draft.keepFiles_error hkeep
        rw [hkeep] at hresult
        have hfull : ¬ (pinned = [] ∨
            stack.plan.keptDescriptors.length + pinned.length ≤ Plan.maxKept) := by
          intro hroom
          rw [Draft.keepFiles_ok.mpr ⟨hroom, rfl⟩] at hkeep
          cases hkeep
        rw [not_or, Nat.not_le] at hfull
        exact Or.inr ⟨hfull.1, hfull.2, hresult⟩

/-! ## A bind mount and a current directory below autofs -/

/-- A host with an autofs mount and a directory below it. -/
def autofsHost : Host :=
  .plain ⟨1000, 1000, 1000, []⟩
    [["etc"], ["etc", "stagehand"], ["image"], ["auto"], ["auto", "work"], ["proc"],
      ["proc", "self"]]
    [(["etc", "stagehand", "stagehand.yaml"], ""),
      (["proc", "self", "mountinfo"], "40 22 0:35 / /auto rw - autofs systemd-1 rw\n")]

theorem standsInDirectory_autofsHost : autofsHost.StandsInDirectory where
  somewhere := by
    intro directory hdirectory
    obtain rfl := Option.some.inj hdirectory
    exact Walk.reached_root
  directory := by
    intro directory hdirectory
    obtain rfl := Option.some.inj hdirectory
    decide +kernel

/-- A request with a bind mount of a directory that is not there, one of a directory below the
mount point, and the mount point as the current directory. -/
def belowAutofs : String :=
  "\x7b\"image\":\"/image\",\"process\":\x7b\"args\":[\"sh\"]\x7d," ++
    "\"bindPaths\":[\x7b\"source\":\"/auto/gone\"\x7d,\x7b\"source\":\"/auto/work\"\x7d]," ++
    "\"cwd\":\"/auto\"\x7d"

theorem prepare_belowAutofs :
    ∃ c r h', LaunchConfig.parse belowAutofs = .ok c ∧ c.instanceJoin = none ∧
      c.fuseMounts.length = 0 ∧
      ((onHost autofsHost false).prepare c).perform autofsHost = (.ok r, h') ∧
      r.held.map OpenFile.place = [["auto", "work"], ["auto"]] := by
  obtain ⟨c, hparse, hc⟩ : ∃ c, LaunchConfig.parse belowAutofs = .ok c ∧
      (c.instanceJoin, c.fuseMounts.length,
        (((onHost autofsHost false).prepare c).perform autofsHost).1.toOption.map
          fun r => r.held.map OpenFile.place) =
      (none, 0, some [["auto", "work"], ["auto"]]) :=
    Error.exists_ok_of_map (by decide +kernel)
  simp only [Prod.mk.injEq] at hc
  obtain ⟨hfresh, hmounts, hready⟩ := hc
  obtain ⟨r, h', hrun, hheld⟩ := Action.exists_perform_ok hready
  exact ⟨c, r, h', hparse, hfresh, hmounts, hrun, hheld⟩

/-- Of what this launch holds, what is pinned comes last, at the places that the needed paths
lead to. -/
theorem autofs_pinned_exactly_belowAutofs :
    ∃ c r h', c.instanceJoin = none ∧ autofsHost.StandsInDirectory ∧
      ((onHost autofsHost false).prepare c).perform autofsHost = (.ok r, h') ∧
      r.held.map OpenFile.place = [["auto", "work"], ["auto"]] ∧
      ∃ (files : AdminFiles) (stack : Draft) (pinned : List OpenFile) (h₁ h₂ : Host),
        Autofs.Pins (Autofs.seenPoints h₁ ⟨"/proc/self/mountinfo"⟩) h₁
          (c.neededPaths files.policy (Draft.directoryOf c autofsHost)) pinned h₂ ∧
        r.held = stack.held ++ pinned ∧
        (∀ f ∈ pinned, Draft.descriptor f ∈ r.plan.keptDescriptors) ∧
        ∀ f ∈ pinned, ∃ source ∈ c.neededPaths files.policy (Draft.directoryOf c autofsHost),
          ∃ h₀ : Host, h₀.lasting = autofsHost.lasting ∧
            h₀.canonical source = .ok f.place.path := by
  obtain ⟨c, r, h', -, hfresh, hmounts, hrun, hplaces⟩ := prepare_belowAutofs
  obtain ⟨files, stack, h₁, pinned, h₂, handles, -, -, -, hpins, hheld, hhandles, hkept, hpaths⟩ :=
    (autofs_pinned_exactly hfresh).1 r h' hrun
  have hnone : handles = [] := List.eq_nil_of_length_eq_zero (hhandles.trans hmounts)
  rw [hnone, List.append_nil] at hheld
  exact ⟨c, r, h', hfresh, standsInDirectory_autofsHost, hrun, hplaces, files, stack, pinned, h₁,
    h₂, hpins, hheld, hkept, hpaths standsInDirectory_autofsHost⟩

end Launcher
end ContainerLaunch
