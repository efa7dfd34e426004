import ContainerLaunch.Proofs.HostSide.Tasks
import ContainerLaunch.Proofs.Launch.Preparation
import Mathlib.Data.List.Induction
/-!
# Whether the mount was detached

The tasks of the host side can be started any number of times and in any order.  Whether
there is a mount is told by its directory alone, and a cleanup removes that directory also
where it could not detach the mount.  From then on the tasks take the mount for detached: a
cleanup that succeeds after others means that the mount was detached, unless one of those
abandoned it.
-/

namespace ContainerLaunch

namespace Leftovers

variable {unmount : Detacher} {l : Leftovers} {h h' : Host} {tasks part : List HostTask}
  {t : HostTask}

/-! ## Histories -/

/-- The host after a task, be it done or failed. -/
def hostAfter (unmount : Detacher) (l : Leftovers) (h : Host) (t : HostTask) : Host :=
  ((t.perform unmount l).perform h).2

/-- The host after several tasks. -/
def hostAfterAll (unmount : Detacher) (l : Leftovers) (h : Host) (tasks : List HostTask) : Host :=
  tasks.foldl (hostAfter unmount l) h

theorem hostAfterAll_concat :
    hostAfterAll unmount l h (tasks ++ [t]) =
      hostAfter unmount l (hostAfterAll unmount l h tasks) t := by
  rw [hostAfterAll, hostAfterAll, List.foldl_append]
  rfl

/-- One of several tasks detaches the mount. -/
def DetachedDuring (unmount : Detacher) (l : Leftovers) (h : Host) (tasks : List HostTask) :
    Prop :=
  ∃ before t, before ++ [t] <+: tasks ∧ l.Detaches unmount (hostAfterAll unmount l h before)

/-- One of several tasks abandons the mount: it is a cleanup at whose beginning the mount
is there, neither it nor a task before it detaches the mount, and from its end on the
mount counts as gone. -/
def Abandoned (unmount : Detacher) (l : Leftovers) (h : Host) (tasks : List HostTask) : Prop :=
  ∃ before, before ++ [.cleanup] <+: tasks ∧
    (l.mounted (hostAfterAll unmount l h before)).isSome = true ∧
    ¬ DetachedDuring unmount l h (before ++ [.cleanup]) ∧
    ∀ part, before ++ [.cleanup] <+: part → part <+: tasks →
      l.mounted (hostAfterAll unmount l h part) = none

theorem detachedDuring_concat :
    DetachedDuring unmount l h (tasks ++ [t]) ↔
      DetachedDuring unmount l h tasks ∨ l.Detaches unmount (hostAfterAll unmount l h tasks) := by
  constructor
  · rintro ⟨before, s, hbefore, hdetach⟩
    rcases List.prefix_concat_iff.mp hbefore with heq | hbefore
    · rw [(List.append_inj' heq rfl).1] at hdetach
      exact .inr hdetach
    · exact .inl ⟨before, s, hbefore, hdetach⟩
  · rintro (⟨before, s, hbefore, hdetach⟩ | hdetach)
    · exact ⟨before, s, hbefore.trans (List.prefix_append _ _), hdetach⟩
    · exact ⟨tasks, t, List.prefix_rfl, hdetach⟩

/-- A mount that was abandoned is not detached later. -/
theorem Abandoned.not_detachedDuring (habandoned : Abandoned unmount l h tasks) :
    ¬ DetachedDuring unmount l h tasks := by
  obtain ⟨before, hbefore, -, hnot, hgone⟩ := habandoned
  rintro ⟨part, t, hpart, hdetach⟩
  -- the task that detaches the mount is the cleanup or one before it, or one after it
  rcases List.prefix_or_prefix_of_prefix hbefore hpart with hlater | hearlier
  · rcases List.prefix_concat_iff.mp hlater with heq | hlater
    · exact hnot ⟨part, t, heq ▸ List.prefix_rfl, hdetach⟩
    · have hnone := hgone part hlater ((List.prefix_append _ _).trans hpart)
      rw [Detaches, hnone] at hdetach
      cases hdetach.1
  · exact hnot ⟨part, t, hearlier, hdetach⟩

/-! ## How a mount gets lost -/

/-- A call that fails to detach the mount leaves its directory there. -/
def KeepsOnFailure (unmount : Detacher) (l : Leftovers) : Prop :=
  ∀ h e h', (unmount l.image).perform h = (.error e, h') → l.mounted h' = l.mounted h

/-- A task after which the mount counts as gone, though it was there and is not detached,
is a cleanup. -/
theorem eq_cleanup_of_lost (hkeeps : KeepsOnFailure unmount l)
    (hmounted : (l.mounted h).isSome = true) (hnot : ¬ l.Detaches unmount h)
    (hgone : l.mounted (hostAfter unmount l h t) = none) : t = .cleanup := by
  cases t with
  | cleanup => rfl
  | afterStart =>
      obtain ⟨directory, hdirectory⟩ := Option.isSome_iff_exists.mp hmounted
      cases hfirst : (unmount l.image).perform h with
      | mk r h₁ =>
          cases r with
          | ok _ => exact absurd ⟨hmounted, by rw [hfirst]⟩ hnot
          | error e =>
              have hafter : hostAfter unmount l h .afterStart = h₁ := by
                simp only [hostAfter, HostTask.perform, perform_afterStart, hdirectory,
                  Action.perform_bind, hfirst]
              rw [hafter, hkeeps h e h₁ hfirst, hdirectory] at hgone
              cases hgone

/-- Where the mount was there and counts as gone after several tasks, it was either
detached or abandoned. -/
theorem abandoned_of_not_detachedDuring (hkeeps : KeepsOnFailure unmount l)
    (hmounted : (l.mounted h).isSome = true)
    (hgone : l.mounted (hostAfterAll unmount l h tasks) = none)
    (hnot : ¬ DetachedDuring unmount l h tasks) : Abandoned unmount l h tasks := by
  induction tasks using List.reverseRecOn with
  | nil =>
      rw [hostAfterAll, List.foldl_nil] at hgone
      rw [hgone] at hmounted
      cases hmounted
  | append_singleton earlier t ih =>
      obtain ⟨hearlier, hlast⟩ := not_or.mp (mt detachedDuring_concat.mpr hnot)
      cases hthere : l.mounted (hostAfterAll unmount l h earlier) with
      | none =>
          -- the mount was lost before the last task and did not come back with it
          obtain ⟨before, hbefore, hbegin, hfailed, hlost⟩ := ih hthere hearlier
          refine ⟨before, hbefore.trans (List.prefix_append _ _), hbegin, hfailed, ?_⟩
          intro part hpart hupto
          rcases List.prefix_concat_iff.mp hupto with rfl | hupto
          · exact hgone
          · exact hlost part hpart hupto
      | some directory =>
          have hbegin : (l.mounted (hostAfterAll unmount l h earlier)).isSome = true := by
            rw [hthere]
            rfl
          obtain rfl : t = .cleanup :=
            eq_cleanup_of_lost hkeeps hbegin hlast (hostAfterAll_concat ▸ hgone)
          refine ⟨earlier, List.prefix_rfl, hbegin, hnot, ?_⟩
          intro part hpart hupto
          rw [← hpart.eq_of_length_le hupto.length_le]
          exact hgone

/-! ## What a successful cleanup means -/

/-- After a cleanup that succeeds, the mount that was there in the beginning has been
detached by it or by one of the tasks before it, if and only if none of those abandoned
the mount. -/
theorem detachedDuring_iff_not_abandoned (hkeeps : KeepsOnFailure unmount l)
    (hmounted : (l.mounted h).isSome = true)
    (hrun : (l.cleanup unmount).perform (hostAfterAll unmount l h tasks) = (.ok (), h')) :
    DetachedDuring unmount l h (tasks ++ [.cleanup]) ↔ ¬ Abandoned unmount l h tasks := by
  rw [detachedDuring_concat]
  cases hthere : l.mounted (hostAfterAll unmount l h tasks) with
  | some directory =>
      have hlast : l.Detaches unmount (hostAfterAll unmount l h tasks) :=
        .of_cleanup (by rw [hthere]; rfl) hrun
      refine iff_of_true (.inr hlast) ?_
      rintro ⟨before, hbefore, -, -, hgone⟩
      rw [hgone tasks hbefore List.prefix_rfl] at hthere
      cases hthere
  | none =>
      have hlast : ¬ l.Detaches unmount (hostAfterAll unmount l h tasks) := by
        rw [Detaches, hthere]
        rintro ⟨hsome, -⟩
        cases hsome
      rw [or_iff_left hlast]
      constructor
      · intro hdetached habandoned
        exact habandoned.not_detachedDuring hdetached
      · intro hnot
        by_contra hdetached
        exact hnot (abandoned_of_not_detachedDuring hkeeps hmounted hthere hdetached)

/-! ## Detaching by a script -/

variable {answer : Nat → Path → Except Error Unit}

theorem perform_scripted (p : Path) (h : Host) :
    (Detacher.scripted answer p).perform h =
      (answer h.runs.length p, { h with runs := h.runs ++ [⟨[], [p.text]⟩] }) := by
  simp only [Detacher.scripted, Action.perform_observe_bind]
  cases answer h.runs.length p <;> rfl

/-- Whatever a script answers, a call that fails leaves the mount. -/
theorem keepsOnFailure_scripted : KeepsOnFailure (.scripted answer) l := by
  intro h e h' hrun
  rw [perform_scripted] at hrun
  obtain ⟨-, rfl⟩ := Prod.mk.inj hrun
  rfl

theorem detaches_scripted_iff :
    l.Detaches (.scripted answer) h ↔
      (l.mounted h).isSome = true ∧ answer h.runs.length l.image = .ok () := by
  rw [Detaches, perform_scripted]

/-! ## A mount that is detached at the second attempt, and one that never is -/

/-- A host with the directory of a mount. -/
def mountHost : Host :=
  .plain ⟨0, 0, 0, []⟩ [["mount"], ["mount", "root"]] []

def mountLeftovers : Leftovers :=
  ⟨true, ⟨"/mount/root"⟩, some ⟨"/mount"⟩, none⟩

/-- The first call fails, and the later ones do not. -/
def failsOnce (before : Nat) (_ : Path) : Except Error Unit :=
  if before = 0 then .error (.internal "busy") else .ok ()

/-- Every call fails. -/
def alwaysFails (_ : Nat) (_ : Path) : Except Error Unit :=
  .error (.internal "busy")

/-- The mount is not detached after the start, and is by the cleanup. -/
theorem detachedDuring_iff_not_abandoned_failsOnce :
    ∃ h', KeepsOnFailure (.scripted failsOnce) mountLeftovers ∧
      (mountLeftovers.mounted mountHost).isSome = true ∧
      (mountLeftovers.cleanup (.scripted failsOnce)).perform
        (hostAfterAll (.scripted failsOnce) mountLeftovers mountHost [.afterStart]) =
          (.ok (), h') ∧
      DetachedDuring (.scripted failsOnce) mountLeftovers mountHost [.afterStart, .cleanup] ∧
      ¬ Abandoned (.scripted failsOnce) mountLeftovers mountHost [.afterStart] := by
  have hmounted : (mountLeftovers.mounted mountHost).isSome = true := by decide +kernel
  obtain ⟨_, h', hrun, -⟩ := Action.exists_perform_ok (f := fun _ => ()) (b := ())
    (a := mountLeftovers.cleanup (.scripted failsOnce))
    (h := hostAfterAll (.scripted failsOnce) mountLeftovers mountHost [.afterStart])
    (by decide +kernel)
  have hiff := detachedDuring_iff_not_abandoned keepsOnFailure_scripted hmounted hrun
  have hnot : ¬ Abandoned (.scripted failsOnce) mountLeftovers mountHost [.afterStart] := by
    rintro ⟨before, hbefore, -⟩
    have hmem : HostTask.cleanup ∈ [HostTask.afterStart] :=
      hbefore.subset (List.mem_append_right _ (List.mem_singleton_self _))
    cases List.mem_singleton.mp hmem
  exact ⟨h', keepsOnFailure_scripted, hmounted, hrun, hiff.mpr hnot, hnot⟩

/-- No call succeeds, the second cleanup does, and it has called nothing. -/
theorem cleanup_succeeds_undetached :
    ∃ h', (mountLeftovers.mounted mountHost).isSome = true ∧
      (mountLeftovers.cleanup (.scripted alwaysFails)).perform
        (hostAfterAll (.scripted alwaysFails) mountLeftovers mountHost [.cleanup]) =
          (.ok (), h') ∧
      h'.runs.length = 1 ∧
      ¬ DetachedDuring (.scripted alwaysFails) mountLeftovers mountHost [.cleanup, .cleanup] := by
  obtain ⟨_, h', hrun, -⟩ := Action.exists_perform_ok (f := fun _ => ()) (b := ())
    (a := mountLeftovers.cleanup (.scripted alwaysFails))
    (h := hostAfterAll (.scripted alwaysFails) mountLeftovers mountHost [.cleanup])
    (by decide +kernel)
  have hruns : ((mountLeftovers.cleanup (.scripted alwaysFails)).perform
      (hostAfterAll (.scripted alwaysFails) mountLeftovers mountHost [.cleanup])).2.runs.length =
        1 := by decide +kernel
  rw [hrun] at hruns
  refine ⟨h', by decide +kernel, hrun, hruns, ?_⟩
  rintro ⟨before, t, -, hdetach⟩
  cases (detaches_scripted_iff.mp hdetach).2

end Leftovers
end ContainerLaunch
