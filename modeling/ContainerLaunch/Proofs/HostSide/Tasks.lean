import ContainerLaunch.Mounts.Detaching
import ContainerLaunch.Proofs.Actions
/-!
# The tasks of the host side

A cleanup that reports no failure did what the task after the start does, and then
removed the directory of the pulled image.  A task that succeeds although the mount is
there when it begins has detached it.
-/

namespace ContainerLaunch

namespace Leftovers

variable {unmount : Detacher} {l : Leftovers} {h h' : Host}

/-! ## Attempts -/

/-- The words for the failure of a step, if it failed. -/
def failureOf (what : String) : Except Error Unit → List String
  | .ok () => []
  | .error e => [s!"while {what}: {e.message}"]

@[simp] theorem failureOf_eq_nil_iff {what : String} {r : Except Error Unit} :
    failureOf what r = [] ↔ r = .ok () := by
  cases r <;> simp [failureOf]

/-- An attempt leaves what its action leaves, and never fails itself. -/
theorem perform_attempt (what : String) (a : Action Unit) (h : Host) :
    (attempt what a).perform h = (.ok (failureOf what (a.perform h).1), (a.perform h).2) := by
  have hrun : (Action.outcome a).perform h = (.ok (a.perform h).1, (a.perform h).2) :=
    Action.perform_outcome_ok.mpr rfl
  simp only [attempt, Action.perform_bind, hrun]
  cases (a.perform h).1 <;> rfl

/-! ## Runs of the tasks -/

theorem perform_afterStart (unmount : Detacher) (l : Leftovers) (h : Host) :
    (l.afterStart unmount).perform h =
      match l.mounted h with
      | none => (.ok (), h)
      | some directory => (unmount l.image >>= fun _ => Action.removeAll directory).perform h := by
  rw [afterStart, Action.perform_observe_bind]
  cases l.mounted h <;> rfl

/-- Where a mount is there, a cleanup tries to detach it and then, however that went, to
remove its directory. -/
theorem perform_clearMount (unmount : Detacher) (l : Leftovers) (h : Host) :
    (l.clearMount unmount).perform h =
      match l.mounted h with
      | none => (.ok [], h)
      | some directory =>
        let first := (unmount l.image).perform h
        let second := (Action.removeAll directory).perform first.2
        (.ok (failureOf s!"unmounting fuse directory {l.image}" first.1 ++
          failureOf s!"removing temp directory {directory}" second.1), second.2) := by
  rw [clearMount, Action.perform_observe_bind]
  cases l.mounted h with
  | none => rfl
  | some directory => simp only [Action.perform_bind, perform_attempt, Action.perform_pure]

theorem clearMount_nil_iff :
    (l.clearMount unmount).perform h = (.ok [], h') ↔
      (l.afterStart unmount).perform h = (.ok (), h') := by
  rw [perform_afterStart, perform_clearMount]
  cases l.mounted h with
  | none => simp
  | some directory =>
      simp only [Prod.mk.injEq, Except.ok.injEq, List.append_eq_nil_iff, failureOf_eq_nil_iff,
        Action.perform_bind_ok]
      constructor
      · rintro ⟨⟨hfirst, hsecond⟩, hh⟩
        exact ⟨(), ((unmount l.image).perform h).2, Prod.ext hfirst rfl, Prod.ext hsecond hh⟩
      · rintro ⟨_, h₁, hfirst, hsecond⟩
        simp [hfirst, hsecond]

/-- A cleanup succeeds exactly if the mount and then the pulled image are cleared without
a failure. -/
theorem cleanup_ok :
    (l.cleanup unmount).perform h = (.ok (), h') ↔
      ∃ h₁, (l.afterStart unmount).perform h = (.ok (), h₁) ∧
        l.clearPull.perform h₁ = (.ok [], h') := by
  simp only [cleanup, Action.perform_bind_ok, ← clearMount_nil_iff]
  constructor
  · rintro ⟨first, h₁, hfirst, second, h₂, hsecond, hend⟩
    by_cases hnone : (first ++ second).isEmpty = true
    · simp only [hnone, if_true, Action.perform_pure_ok, true_and] at hend
      obtain ⟨rfl, rfl⟩ := List.append_eq_nil_iff.mp (List.isEmpty_iff.mp hnone)
      exact ⟨h₁, hfirst, hend ▸ hsecond⟩
    · simp [hnone] at hend
  · rintro ⟨h₁, hfirst, hsecond⟩
    exact ⟨[], h₁, hfirst, [], h', hsecond, rfl⟩

/-! ## Detaching -/

/-- A task that begins on this host detaches the mount: the mount is there, and the call
that detaches it succeeds. -/
def Detaches (unmount : Detacher) (l : Leftovers) (h : Host) : Prop :=
  (l.mounted h).isSome = true ∧ ((unmount l.image).perform h).1 = .ok ()

theorem Detaches.of_afterStart (hmounted : (l.mounted h).isSome = true)
    (hrun : (l.afterStart unmount).perform h = (.ok (), h')) : l.Detaches unmount h := by
  obtain ⟨directory, hdirectory⟩ := Option.isSome_iff_exists.mp hmounted
  rw [perform_afterStart, hdirectory] at hrun
  obtain ⟨_, h₁, hfirst, -⟩ := Action.perform_bind_ok.mp hrun
  exact ⟨hmounted, congrArg Prod.fst hfirst⟩

theorem Detaches.of_cleanup (hmounted : (l.mounted h).isSome = true)
    (hrun : (l.cleanup unmount).perform h = (.ok (), h')) : l.Detaches unmount h := by
  obtain ⟨h₁, hclear, -⟩ := cleanup_ok.mp hrun
  exact .of_afterStart hmounted hclear

end Leftovers
end ContainerLaunch
