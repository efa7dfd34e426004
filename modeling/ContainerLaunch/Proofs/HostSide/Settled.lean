import ContainerLaunch.Proofs.HostSide.DetachedMount
import ContainerLaunch.Proofs.Removals
/-!
# Cleaning up more than once

After a cleanup that reports no failure nothing is left to be done: the mount counts as
gone, and the path of the pulled image leads to nothing.  Both say only what is not there,
and so neither the order of the two directories matters, nor whether one holds the other
or they are links.  On such a host a task does nothing at all and succeeds.
-/

namespace ContainerLaunch

namespace Leftovers

variable {unmount later : Detacher} {l : Leftovers} {h h' : Host} {p : Path} {t : HostTask}

/-- Nothing is left to be done. -/
structure Settled (l : Leftovers) (h : Host) : Prop where
  mount : l.mounted h = none
  pull : ∀ directory, l.pullDir = some directory → h.LeadsNowhere false directory

/-! ## What the steps of a cleanup leave -/

theorem mounted_eq_none_iff :
    l.mounted h = none ↔
      (l.imageFuse = true → ∀ directory, l.mountDir = some directory →
        h.exists? directory = false) := by
  unfold mounted
  cases l.imageFuse with
  | false => simp
  | true =>
      cases l.mountDir with
      | none => simp
      | some directory => simp

theorem mounted_eq_some_iff {directory : Path} :
    l.mounted h = some directory ↔
      l.imageFuse = true ∧ l.mountDir = some directory ∧ h.exists? directory = true := by
  unfold mounted
  cases l.imageFuse with
  | false => simp
  | true => simp [Option.filter_eq_some_iff]

/-- A mount that counts as gone does not come back where less is to be seen. -/
theorem mounted_of_removed (hgone : l.mounted h = none) (hremoved : h.Removed h' p) :
    l.mounted h' = none := by
  rw [mounted_eq_none_iff] at hgone ⊢
  intro hfuse directory hdirectory
  exact Host.not_exists_of_fewer hremoved.directory hremoved.fewer (hgone hfuse directory hdirectory)

/-- The mount counts as gone once the task after the start has succeeded. -/
theorem mounted_of_afterStart (hrun : (l.afterStart unmount).perform h = (.ok (), h')) :
    l.mounted h' = none := by
  rw [perform_afterStart] at hrun
  cases hmounted : l.mounted h with
  | none =>
      rw [hmounted] at hrun
      obtain rfl : h = h' := congrArg Prod.snd hrun
      exact hmounted
  | some directory =>
      rw [hmounted] at hrun
      obtain ⟨_, h₁, -, hremove⟩ := Action.perform_bind_ok.mp hrun
      have hremoved := Action.removed_of_removeAll hremove
      have hmount : l.mountDir = some directory := (mounted_eq_some_iff.mp hmounted).2.1
      rw [mounted_eq_none_iff]
      intro _ found hfound
      obtain rfl : directory = found := Option.some.inj (hmount.symm.trans hfound)
      exact hremoved.nowhere.following.not_exists

theorem perform_clearPull (l : Leftovers) (h : Host) :
    l.clearPull.perform h =
      match l.pullDir with
      | none => (.ok [], h)
      | some directory =>
        let removal := (Action.removeAll directory).perform h
        (.ok (failureOf s!"removing pull directory {directory}" removal.1), removal.2) := by
  unfold clearPull
  cases l.pullDir with
  | none => rfl
  | some directory => exact perform_attempt _ _ h

/-- Once the pulled image is removed after the mount, nothing is left to be done. -/
theorem settled_of_clearPull (hgone : l.mounted h = none)
    (hrun : l.clearPull.perform h = (.ok [], h')) : l.Settled h' := by
  rw [perform_clearPull] at hrun
  cases hpull : l.pullDir with
  | none =>
      rw [hpull] at hrun
      obtain rfl : h = h' := congrArg Prod.snd hrun
      refine ⟨hgone, fun directory hdirectory => ?_⟩
      rw [hpull] at hdirectory
      cases hdirectory
  | some directory =>
      rw [hpull] at hrun
      obtain ⟨hfailure, hleft⟩ := Prod.mk.inj hrun
      have hdone := failureOf_eq_nil_iff.mp (Except.ok.inj hfailure)
      have hremoved : h.Removed h' directory :=
        Action.removed_of_removeAll (Prod.ext hdone hleft)
      refine ⟨mounted_of_removed hgone hremoved, fun found hfound => ?_⟩
      obtain rfl : directory = found := Option.some.inj (hpull.symm.trans hfound)
      exact hremoved.nowhere

theorem settled_of_cleanup (hrun : (l.cleanup unmount).perform h = (.ok (), h')) :
    l.Settled h' := by
  obtain ⟨h₁, hmount, hpull⟩ := cleanup_ok.mp hrun
  exact settled_of_clearPull (mounted_of_afterStart hmount) hpull

/-! ## What a task does when nothing is left to be done -/

theorem Settled.afterStart (hsettled : l.Settled h) (later : Detacher) :
    (l.afterStart later).perform h = (.ok (), h) := by
  rw [perform_afterStart, hsettled.mount]

theorem Settled.clearPull (hsettled : l.Settled h) : l.clearPull.perform h = (.ok [], h) := by
  rw [perform_clearPull]
  cases hpull : l.pullDir with
  | none => rfl
  | some directory =>
      have hnothing := Action.perform_removeAll_of_leadsNowhere (hsettled.pull directory hpull)
      simp only [hnothing, failureOf]

/-- A task does nothing, and so the mount is not detached again, whatever that would do. -/
theorem Settled.perform (hsettled : l.Settled h) (later : Detacher) (t : HostTask) :
    (t.perform later l).perform h = (.ok (), h) := by
  cases t with
  | afterStart => exact hsettled.afterStart later
  | cleanup => exact cleanup_ok.mpr ⟨h, hsettled.afterStart later, hsettled.clearPull⟩

theorem Settled.hostAfterAll (hsettled : l.Settled h) (later : Detacher) (tasks : List HostTask) :
    Leftovers.hostAfterAll later l h tasks = h := by
  induction tasks using List.reverseRecOn with
  | nil => rfl
  | append_singleton earlier t ih =>
      rw [hostAfterAll_concat, ih, hostAfter, hsettled.perform later t]

/-! ## Tasks after a cleanup -/

/-- After a cleanup that succeeds every further task succeeds and leaves the host exactly
as it is, its files and the record of what was done to it.  This does not depend on what
the later calls to detach the mount would do, and so none is made. -/
theorem cleanup_idempotent (hrun : (l.cleanup unmount).perform h = (.ok (), h'))
    (later : Detacher) (tasks : List HostTask) :
    Leftovers.hostAfterAll later l h' tasks = h' ∧
      ∀ before t, before ++ [t] <+: tasks →
        (t.perform later l).perform (Leftovers.hostAfterAll later l h' before) = (.ok (), h') := by
  have hsettled := settled_of_cleanup hrun
  refine ⟨hsettled.hostAfterAll later tasks, ?_⟩
  intro before t _
  rw [hsettled.hostAfterAll later before]
  exact hsettled.perform later t

/-- A host on which the directory of the mount is a link into the directory of the pulled
image. -/
def linkedHost : Host :=
  let plain := Host.plain ⟨0, 0, 0, []⟩ [["pull"], ["pull", "mount"], ["pull", "mount", "root"]] []
  { plain with tree := plain.tree.put ["mount"] ⟨.link ⟨"/pull/mount"⟩, 0, 0, false⟩ }

def linkedLeftovers : Leftovers :=
  ⟨true, ⟨"/mount/root"⟩, some ⟨"/mount"⟩, some ⟨"/pull/"⟩⟩

/-- The mount is detached by the first call, and no later call would succeed. -/
theorem cleanup_idempotent_linked :
    ∃ h', (linkedLeftovers.mounted linkedHost).isSome = true ∧
      (linkedLeftovers.cleanup (.scripted fun _ _ => .ok ())).perform linkedHost =
        (.ok (), h') ∧
      Leftovers.hostAfterAll (.scripted alwaysFails) linkedLeftovers h'
        [.cleanup, .afterStart, .cleanup] = h' := by
  obtain ⟨_, h', hrun, -⟩ := Action.exists_perform_ok (f := fun _ => ()) (b := ())
    (a := linkedLeftovers.cleanup (.scripted fun _ _ => .ok ())) (h := linkedHost)
    (by decide +kernel)
  refine ⟨h', by decide +kernel, hrun, ?_⟩
  exact (cleanup_idempotent hrun (.scripted alwaysFails) [.cleanup, .afterStart, .cleanup]).1

end Leftovers
end ContainerLaunch
