import ContainerLaunch.Launch.NewContainer
import ContainerLaunch.Proofs.Descriptors
import ContainerLaunch.Proofs.Launch.Shared
/-!
# What is kept open below autofs mounts

Of several paths those are opened that lead to an autofs mount point or below one.  A path that
leads nowhere or elsewhere, or that may not be opened, is passed over.  So there is no way for a
path to end the launch, and the table of mounts cannot end it either: all that a draft may lack
is room for what was opened.
-/

namespace ContainerLaunch

namespace Autofs

variable {points sources : List Path} {source resolved : Path} {f : OpenFile}
  {files : List OpenFile} {h h' : Host}

/-! ## Paths below mount points -/

/-- A path leads to an autofs mount point or below one, and a file is what is opened there. -/
structure PinnedAs (points : List Path) (h : Host) (source resolved : Path) (f : OpenFile) :
    Prop where
  canonical : h.canonical source = .ok resolved
  below : ∃ point ∈ points, point.components <+: resolved.components
  opened : h.opening .read resolved = .ok (f.place, f.inode)
  number_eq : f.number = h.freshNumber

theorem isBelow_iff {p : Path} :
    isBelow points p = true ↔ ∃ point ∈ points, point.components <+: p.components := by
  simp only [isBelow, List.any_eq_true, Path.isWithin_iff]

/-- A path is pinned as it is found. -/
theorem pin_ok :
    (pin points source).perform h = (.ok (some f), h') ↔
      (∃ resolved, PinnedAs points h source resolved f) ∧
        h' = h.addDescriptor (.file f.place) := by
  simp only [pin, Action.perform_bind_ok, Action.perform_check_ok]
  constructor
  · rintro ⟨resolved, h₁, ⟨hcanonical, rfl⟩, hrun⟩
    split at hrun
    · next hbelow =>
      obtain ⟨file, h₂, hopen, hdone⟩ := Action.perform_bind_ok.mp hrun
      obtain ⟨hfile, rfl⟩ := Action.perform_pure_ok.mp hdone
      obtain rfl := Option.some.inj hfile
      obtain ⟨hopened, hnumber, rfl⟩ := Action.perform_openFile_ok.mp hopen
      exact ⟨⟨resolved, hcanonical, isBelow_iff.mp hbelow, hopened, hnumber⟩, rfl⟩
    · cases (Action.perform_pure_ok.mp hrun).1
  · rintro ⟨⟨resolved, hpin⟩, rfl⟩
    refine ⟨resolved, h, ⟨hpin.canonical, rfl⟩, ?_⟩
    rw [if_pos (isBelow_iff.mpr hpin.below)]
    exact Action.perform_bind_ok.mpr ⟨f, _,
      Action.perform_openFile_ok.mpr ⟨hpin.opened, hpin.number_eq, rfl⟩, rfl⟩

/-- Whatever else becomes of a path, nothing is opened for it. -/
theorem eq_of_pin {x : Except Error (Option OpenFile)} (hx : ∀ f, x ≠ .ok (some f))
    (hrun : (pin points source).perform h = (x, h')) : h' = h := by
  cases x with
  | error e =>
      rcases Action.perform_bind_error.mp hrun with hfail | ⟨resolved, h₁, hfound, hrest⟩
      · exact (Action.perform_check_error.mp hfail).2.symm
      · obtain ⟨-, rfl⟩ := Action.perform_check_ok.mp hfound
        split at hrest
        · rcases Action.perform_bind_error.mp hrest with hopen | ⟨file, h₂, -, hnever⟩
          · exact (Action.perform_openFile_error.mp hopen).2.symm
          · simp at hnever
        · simp at hrest
  | ok found =>
      obtain ⟨resolved, h₁, hfound, hrest⟩ := Action.perform_bind_ok.mp hrun
      obtain ⟨-, rfl⟩ := Action.perform_check_ok.mp hfound
      split at hrest
      · obtain ⟨file, h₂, -, hdone⟩ := Action.perform_bind_ok.mp hrest
        exact absurd (congrArg _ (Action.perform_pure_ok.mp hdone).1.symm) (hx file)
      · exact (Action.perform_pure_ok.mp hrest).2.symm

/-! ## Several paths -/

/-- What is opened for several paths, one after the other: a file for each that is pinned, and
nothing for the others. -/
inductive Pins (points : List Path) : Host → List Path → List OpenFile → Host → Prop
  | nil (h : Host) : Pins points h [] [] h
  | pinned {h h' : Host} {source resolved : Path} {f : OpenFile} {sources : List Path}
      {files : List OpenFile} (hpin : PinnedAs points h source resolved f)
      (hrest : Pins points (h.addDescriptor (.file f.place)) sources files h') :
      Pins points h (source :: sources) (f :: files) h'
  | passed {h h' : Host} {source : Path} {sources : List Path} {files : List OpenFile}
      (hnot : ∀ resolved f, ¬ PinnedAs points h source resolved f)
      (hrest : Pins points h sources files h') : Pins points h (source :: sources) files h'

/-- Pinning always comes to its end. -/
theorem exists_pins (points sources : List Path) (h : Host) :
    ∃ files h', (pinEach points sources).perform h = (.ok files, h') ∧
      Pins points h sources files h' := by
  induction sources generalizing h with
  | nil => exact ⟨[], h, rfl, .nil h⟩
  | cons source rest ih =>
      obtain ⟨⟨x, h₁⟩, hrun⟩ : ∃ run, (pin points source).perform h = run := ⟨_, rfl⟩
      obtain ⟨files, h', hmore, hpins⟩ := ih h₁
      by_cases hx : ∃ f, x = .ok (some f)
      · obtain ⟨f, rfl⟩ := hx
        obtain ⟨⟨resolved, hpin⟩, rfl⟩ := pin_ok.mp hrun
        refine ⟨f :: files, h', ?_, .pinned hpin hpins⟩
        exact Action.perform_bind_ok.mpr ⟨_, _, Action.perform_outcome_ok.mpr hrun,
          Action.perform_bind_ok.mpr ⟨files, h', hmore, rfl⟩⟩
      · have hnone : ∀ f, x ≠ .ok (some f) := fun f hf => hx ⟨f, hf⟩
        obtain rfl := eq_of_pin hnone hrun
        refine ⟨files, h', ?_, .passed ?_ hpins⟩
        · refine Action.perform_bind_ok.mpr ⟨_, _, Action.perform_outcome_ok.mpr hrun,
            Action.perform_bind_ok.mpr ⟨files, h', hmore, ?_⟩⟩
          split
          · next f => exact absurd rfl (hnone f)
          · rfl
        · intro resolved f hpin
          have hpinned := pin_ok.mpr ⟨⟨resolved, hpin⟩, rfl⟩
          rw [hrun] at hpinned
          exact hnone f (Prod.mk.inj hpinned).1

namespace Pins

theorem of_no_points (h : Host) (sources : List Path) : Pins [] h sources [] h := by
  induction sources with
  | nil => exact .nil h
  | cons source rest ih =>
      refine .passed (fun resolved f hpin => ?_) ih
      obtain ⟨point, hpoint, -⟩ := hpin.below
      cases hpoint

theorem opened (hpins : Pins points h sources files h') :
    h.Opened (files.map OpenFile.tableEntry) h' := by
  induction hpins with
  | nil h => exact .of_same rfl
  | @pinned h h' source resolved f sources files hpin hrest ih =>
      have hfirst := Host.Opened.addDescriptor h (.file f.place)
      rw [← hpin.number_eq] at hfirst
      exact hfirst.trans ih
  | passed hnot hrest ih => exact ih

theorem lasting_eq (hpins : Pins points h sources files h') : h'.lasting = h.lasting := by
  induction hpins with
  | nil h => rfl
  | pinned hpin hrest ih => exact ih
  | passed hnot hrest ih => exact ih

/-- Each file that is pinned is what one of the paths leads to, on a host that differs at most
in its descriptors. -/
theorem exists_pinnedAs (hpins : Pins points h sources files h') (hf : f ∈ files) :
    ∃ source ∈ sources, ∃ resolved h₀, h₀.lasting = h.lasting ∧
      PinnedAs points h₀ source resolved f := by
  induction hpins with
  | nil h => cases hf
  | @pinned h h' source resolved g sources files hpin hrest ih =>
      rcases List.mem_cons.mp hf with rfl | hf
      · exact ⟨source, List.mem_cons_self, resolved, h, rfl, hpin⟩
      · obtain ⟨other, hother, resolved, h₀, hlast, hpinned⟩ := ih hf
        exact ⟨other, List.mem_cons_of_mem _ hother, resolved, h₀, hlast, hpinned⟩
  | passed hnot hrest ih =>
      obtain ⟨other, hother, resolved, h₀, hlast, hpinned⟩ := ih hf
      exact ⟨other, List.mem_cons_of_mem _ hother, resolved, h₀, hlast, hpinned⟩

end Pins

/-- The autofs mount points that a table of mounts shows; one that cannot be read shows none. -/
def seenPoints (h : Host) (table : Path) : List Path :=
  match h.readText table with
  | .ok content => ((MountEntry.parse content).filter fun m => m.kind == "autofs").map
      MountEntry.mountPoint
  | .error _ => []

theorem exists_pins_candidates (points sources : List Path) (h : Host) :
    ∃ files h', (pinCandidates points sources).perform h = (.ok files, h') ∧
      Pins points h sources files h' := by
  unfold pinCandidates
  split
  · next hnone =>
    rw [List.isEmpty_iff.mp hnone]
    exact ⟨[], h, rfl, .of_no_points h sources⟩
  · exact exists_pins points sources h

end Autofs

namespace Draft

variable {l : Launcher} {policy : Policy} {d d' : Draft} {h h' : Host}

/-- What a draft needs from below autofs mounts is pinned, and is kept if there is room. -/
theorem perform_withAutofs (l : Launcher) (policy : Policy) (d : Draft) (h : Host) :
    ∃ pinned h', Autofs.Pins (Autofs.seenPoints h l.facts.mountTable) h
        (autofsCandidates policy d.config) pinned h' ∧
      (d.withAutofs l policy).perform h = (d.keepFiles pinned, h') := by
  unfold withAutofs Autofs.points Autofs.seenPoints
  rw [Action.perform_observe_bind, id]
  cases h.readText l.facts.mountTable with
  | error cause => exact ⟨[], h, .of_no_points h _, rfl⟩
  | ok content =>
      obtain ⟨pinned, h', hrun, hpins⟩ := Autofs.exists_pins_candidates _
        (autofsCandidates policy d.config) h
      refine ⟨pinned, h', hpins, ?_⟩
      simp only [Action.perform_bind, hrun, Action.perform_ofExcept]

theorem quiet_withAutofs (l : Launcher) (policy : Policy) (d : Draft) :
    Action.Quiet (d.withAutofs l policy) := by
  intro h
  obtain ⟨pinned, h', hpins, hrun⟩ := perform_withAutofs l policy d h
  rw [hrun]
  exact hpins.lasting_eq

/-- What lies below autofs mounts only adds to the files that are kept. -/
theorem withAutofs_ok (hrun : (d.withAutofs l policy).perform h = (.ok d', h')) :
    ∃ pinned, h.Opened (pinned.map OpenFile.tableEntry) h' ∧ d.holding pinned = d' := by
  obtain ⟨pinned, h₁, hpins, hpinned⟩ := perform_withAutofs l policy d h
  rw [hrun] at hpinned
  obtain ⟨hkept, rfl⟩ := Prod.mk.inj hpinned
  exact ⟨pinned, hpins.opened, (keepFiles_ok.mp hkept.symm).2⟩

end Draft
end ContainerLaunch
