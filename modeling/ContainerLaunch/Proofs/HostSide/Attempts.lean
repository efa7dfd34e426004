import ContainerLaunch.Proofs.HostSide.Settled
/-!
# What a cleanup attempts

A cleanup has up to three chores: to detach the mount, to remove the directory of the mount,
and to remove the directory of the pulled image.  Which of them are due is settled before the
first one begins.  Each is attempted on what those before it have left, however they went,
and those that failed are told and reported in their order, each once.  What the unmounter
does is its own affair; beside that, nothing is taken away but files inside the directories
that are removed.
-/

namespace ContainerLaunch

namespace Detacher

/-- An unmounter that does what another one does and then records the call. -/
def recording (unmount : Detacher) : Detacher := fun mountPoint => do
  let outcome ← Action.outcome (unmount mountPoint)
  modify fun h => { h with runs := h.runs ++ [⟨[], [mountPoint.text]⟩] }
  Action.ofExcept outcome

theorem perform_recording (unmount : Detacher) (p : Path) (h : Host) :
    (unmount.recording p).perform h =
      let call := (unmount p).perform h
      (call.1, { call.2 with runs := call.2.runs ++ [⟨[], [p.text]⟩] }) := by
  have hrun : (Action.outcome (unmount p)).perform h =
      (.ok ((unmount p).perform h).1, ((unmount p).perform h).2) :=
    Action.perform_outcome_ok.mpr rfl
  simp only [recording, Action.perform_bind, hrun]
  cases ((unmount p).perform h).1 <;> rfl

end Detacher

namespace Leftovers

variable {unmount : Detacher} {l : Leftovers} {h h' : Host} {inside : Place → Prop}

/-! ## Chores -/

/-- One of the things that a cleanup does. -/
inductive Chore where
  | detach (image : Path)
  | removeMount (directory : Path)
  | removePull (directory : Path)
  deriving DecidableEq, Repr

namespace Chore

def perform (unmount : Detacher) : Chore → Action Unit
  | .detach image => unmount image
  | .removeMount directory | .removePull directory => Action.removeAll directory

/-- What a failure report calls it. -/
def text : Chore → String
  | .detach image => s!"unmounting fuse directory {image}"
  | .removeMount directory => s!"removing temp directory {directory}"
  | .removePull directory => s!"removing pull directory {directory}"

/-- The directory that is removed. -/
def directory? : Chore → Option Path
  | .detach _ => none
  | .removeMount directory | .removePull directory => some directory

/-- The place of a chore in the order of a cleanup. -/
def rank : Chore → Nat
  | .detach _ => 0
  | .removeMount _ => 1
  | .removePull _ => 2

theorem perform_of_directory? {c : Chore} {directory : Path}
    (hdirectory : c.directory? = some directory) :
    c.perform unmount = Action.removeAll directory := by
  cases c with
  | detach image => cases hdirectory
  | removeMount d | removePull d =>
      obtain rfl : d = directory := Option.some.inj hdirectory
      rfl

end Chore

/-- What there is to do about a mount. -/
def mountChores (l : Leftovers) (h : Host) : List Chore :=
  match l.mounted h with
  | none => []
  | some directory => [.detach l.image, .removeMount directory]

/-- What there is to do about a pulled image. -/
def pullChores (l : Leftovers) : List Chore :=
  match l.pullDir with
  | none => []
  | some directory => [.removePull directory]

/-- The chores of a cleanup that begins on this host, in order. -/
def chores (l : Leftovers) (h : Host) : List Chore :=
  l.mountChores h ++ l.pullChores

theorem mem_mountChores_iff {c : Chore} :
    c ∈ l.mountChores h ↔
      ∃ directory, l.mounted h = some directory ∧
        (c = .detach l.image ∨ c = .removeMount directory) := by
  unfold mountChores
  cases l.mounted h <;> simp

theorem mem_pullChores_iff {c : Chore} :
    c ∈ l.pullChores ↔ ∃ directory, l.pullDir = some directory ∧ c = .removePull directory := by
  unfold pullChores
  cases l.pullDir <;> simp

/-- A cleanup has each chore at most once, and always in the same order. -/
theorem chores_ordered (l : Leftovers) (h : Host) :
    (l.chores h).Pairwise fun c c' => c.rank < c'.rank := by
  unfold chores mountChores pullChores
  cases l.mounted h <;> cases l.pullDir <;> simp [Chore.rank]

/-! ## Attempts -/

/-- A chore that was attempted, with the host before and after it. -/
structure Attempt where
  chore : Chore
  before : Host
  outcome : Except Error Unit
  after : Host

namespace Attempt

/-- The attempt at a chore on a host. -/
def make (unmount : Detacher) (h : Host) (c : Chore) : Attempt :=
  let run := (c.perform unmount).perform h
  ⟨c, h, run.1, run.2⟩

/-- What is reported if it failed. -/
def message? (a : Attempt) : Option String :=
  match a.outcome with
  | .ok () => none
  | .error e => some s!"while {a.chore.text}: {e.message}"

end Attempt

/-- The attempts at several chores, each on what the one before it left. -/
def attempts (unmount : Detacher) : Host → List Chore → List Attempt
  | _, [] => []
  | h, c :: rest =>
    let a := Attempt.make unmount h c
    a :: attempts unmount a.after rest

/-- The host after the attempts at several chores. -/
def leftBy (unmount : Detacher) : Host → List Chore → Host
  | h, [] => h
  | h, c :: rest => leftBy unmount (Attempt.make unmount h c).after rest

/-- The reports of the attempts at several chores that failed, in order. -/
def failures (unmount : Detacher) (h : Host) (cs : List Chore) : List String :=
  (attempts unmount h cs).filterMap Attempt.message?

/-- How a cleanup ends after these reports. -/
def verdict (reports : List String) : Except Error Unit :=
  if reports.isEmpty then .ok () else .error (.cleanup reports)

theorem verdict_eq_ok_iff {reports : List String} : verdict reports = .ok () ↔ reports = [] := by
  cases reports <;> simp [verdict]

theorem verdict_of_ne_nil {reports : List String} (hsome : reports ≠ []) :
    verdict reports = .error (.cleanup reports) :=
  if_neg (mt List.isEmpty_iff.mp hsome)

theorem map_chore_attempts (unmount : Detacher) (h : Host) (cs : List Chore) :
    (attempts unmount h cs).map Attempt.chore = cs := by
  induction cs generalizing h with
  | nil => rfl
  | cons c rest ih =>
      rw [attempts, List.map_cons, ih]
      rfl

theorem eq_make_of_mem_attempts {a : Attempt} {cs : List Chore}
    (ha : a ∈ attempts unmount h cs) : a = Attempt.make unmount a.before a.chore := by
  induction cs generalizing h with
  | nil => cases ha
  | cons c rest ih =>
      rcases List.mem_cons.mp ha with rfl | hrest
      · rfl
      · exact ih hrest

theorem leftBy_append (unmount : Detacher) (h : Host) (cs ds : List Chore) :
    leftBy unmount h (cs ++ ds) = leftBy unmount (leftBy unmount h cs) ds := by
  induction cs generalizing h with
  | nil => rfl
  | cons c rest ih => exact ih _

theorem failures_nil (unmount : Detacher) (h : Host) : failures unmount h [] = [] := rfl

/-- A step of a cleanup reports what the attempt at its chore does. -/
theorem failures_cons (unmount : Detacher) (h : Host) (c : Chore) (rest : List Chore) :
    failures unmount h (c :: rest) =
      failureOf c.text ((c.perform unmount).perform h).1 ++
        failures unmount ((c.perform unmount).perform h).2 rest := by
  simp only [failures, attempts, List.filterMap_cons, Attempt.message?, Attempt.make]
  cases ((c.perform unmount).perform h).1 <;> rfl

theorem failures_append (unmount : Detacher) (h : Host) (cs ds : List Chore) :
    failures unmount h (cs ++ ds) =
      failures unmount h cs ++ failures unmount (leftBy unmount h cs) ds := by
  induction cs generalizing h with
  | nil => rfl
  | cons c rest ih =>
      rw [List.cons_append, failures_cons, failures_cons, ih, List.append_assoc]
      rfl

@[simp] theorem message?_eq_none_iff {a : Attempt} : a.message? = none ↔ a.outcome = .ok () := by
  unfold Attempt.message?
  cases a.outcome <;> simp

theorem failures_eq_nil_iff {cs : List Chore} :
    failures unmount h cs = [] ↔ ∀ a ∈ attempts unmount h cs, a.outcome = .ok () := by
  simp [failures, List.filterMap_eq_nil_iff]

/-! ## A cleanup as attempts -/

theorem clearMount_attempts (unmount : Detacher) (l : Leftovers) (h : Host) :
    (l.clearMount unmount).perform h =
      (.ok (failures unmount h (l.mountChores h)), leftBy unmount h (l.mountChores h)) := by
  rw [perform_clearMount]
  unfold mountChores
  cases l.mounted h with
  | none => rfl
  | some directory =>
      simp only [failures_cons, failures_nil, List.append_nil]
      rfl

theorem clearPull_attempts (unmount : Detacher) (l : Leftovers) (h : Host) :
    l.clearPull.perform h =
      (.ok (failures unmount h l.pullChores), leftBy unmount h l.pullChores) := by
  rw [perform_clearPull]
  unfold pullChores
  cases l.pullDir with
  | none => rfl
  | some directory =>
      simp only [failures_cons, failures_nil, List.append_nil]
      rfl

/-- A cleanup attempts its chores, tells what failed and reports it. -/
theorem perform_cleanup (unmount : Detacher) (l : Leftovers) (h : Host) :
    (l.cleanup unmount).perform h =
      let reports := failures unmount h (l.chores h)
      (verdict reports,
        (leftBy unmount h (l.chores h)).tellAll (reports.map .cleanupFailure)) := by
  simp only [cleanup, Action.perform_bind, clearMount_attempts, clearPull_attempts unmount,
    chores, leftBy_append, failures_append, verdict]
  split
  · next hnone =>
    rw [List.isEmpty_iff.mp hnone, List.map_nil, Host.tellAll_nil]
    rfl
  · rw [Action.perform_notifyAll_bind, Action.perform_fail]

/-! ## What a cleanup changes -/

/-- The chores that remove a directory. -/
def removals (l : Leftovers) (h : Host) : List Chore :=
  (l.chores h).filter fun c => c.directory?.isSome

/-- The host once the unmounter has done what it does, if it is called at all. -/
def unmounted (unmount : Detacher) (l : Leftovers) (h : Host) : Host :=
  match l.mounted h with
  | none => h
  | some _ => ((unmount l.image).perform h).2

/-- A place lies inside one of the directories that are removed. -/
def Inside (unmount : Detacher) (l : Leftovers) (h : Host) (q : Place) : Prop :=
  ∃ c ∈ l.chores h, ∃ directory, c.directory? = some directory ∧
    (l.unmounted unmount h).Covers directory q

theorem leftBy_chores (unmount : Detacher) (l : Leftovers) (h : Host) :
    leftBy unmount h (l.chores h) = leftBy unmount (l.unmounted unmount h) (l.removals h) := by
  unfold removals unmounted chores mountChores pullChores
  cases l.mounted h <;> cases l.pullDir <;> rfl

/-- Removals take away nothing but files inside their directories, wherever those before them
have left the paths of these. -/
theorem lessened_leftBy {start : Host} {cs : List Chore} (hless : Host.Lessened inside start h)
    (hcs : ∀ c ∈ cs, ∃ directory, c.directory? = some directory ∧
      ∀ q, start.Covers directory q → inside q) :
    Host.Lessened inside start (leftBy unmount h cs) := by
  induction cs generalizing h with
  | nil => exact hless
  | cons c rest ih =>
      obtain ⟨⟨directory, hdirectory, hinside⟩, hrest⟩ := List.forall_mem_cons.mp hcs
      refine ih ?_ hrest
      have hafter : (Attempt.make unmount h c).after = (h.removing directory).2 := by
        simp only [Attempt.make, Chore.perform_of_directory? hdirectory, Action.perform_removeAll]
      rw [hafter]
      exact hless.removing hinside

theorem lessened_cleanup (unmount : Detacher) (l : Leftovers) (h : Host) :
    Host.Lessened (l.Inside unmount h) (l.unmounted unmount h)
      (leftBy unmount h (l.chores h)) := by
  rw [leftBy_chores]
  refine lessened_leftBy (.refl _) fun c hc => ?_
  obtain ⟨hdue, hsome⟩ := List.mem_filter.mp hc
  obtain ⟨directory, hdirectory⟩ := Option.isSome_iff_exists.mp hsome
  exact ⟨directory, hdirectory, fun q hq => ⟨c, hdue, directory, hdirectory, hq⟩⟩

/-- A cleanup runs nothing beside the unmounter. -/
theorem runs_cleanup (unmount : Detacher) (l : Leftovers) (h : Host) :
    ((l.cleanup unmount).perform h).2.runs = (l.unmounted unmount h).runs := by
  have hleft := congrArg Host.runs (lessened_cleanup unmount l h).others
  rw [perform_cleanup]
  exact hleft

/-! ## The whole of a cleanup -/

/-- There is a mount to be detached, and this is its directory. -/
structure MountAt (l : Leftovers) (h : Host) (directory : Path) : Prop where
  fuse : l.imageFuse = true
  given : l.mountDir = some directory
  there : h.exists? directory = true

theorem mountAt_iff {directory : Path} : l.MountAt h directory ↔ l.mounted h = some directory := by
  rw [mounted_eq_some_iff]
  exact ⟨fun ⟨hfuse, hgiven, hthere⟩ => ⟨hfuse, hgiven, hthere⟩,
    fun ⟨hfuse, hgiven, hthere⟩ => ⟨hfuse, hgiven, hthere⟩⟩

/-- A cleanup attempts everything and reports exactly what failed. -/
structure Thorough (unmount : Detacher) (l : Leftovers) (h : Host) : Prop where
  /-- What is due does not depend on how any of it goes. -/
  due : ∀ c, c ∈ l.chores h ↔
    (∃ directory, l.MountAt h directory ∧ (c = .detach l.image ∨ c = .removeMount directory)) ∨
      ∃ directory, l.pullDir = some directory ∧ c = .removePull directory
  ordered : (l.chores h).Pairwise fun c c' => c.rank < c'.rank
  attempted : (attempts unmount h (l.chores h)).map Attempt.chore = l.chores h
  /-- Where there is a mount, the unmounter is called once, and with the image. -/
  called : ∀ directory, l.MountAt h directory →
    ((l.cleanup unmount.recording).perform h).2.runs =
      ((unmount l.image).perform h).2.runs ++ [⟨[], [l.image.text]⟩]
  notCalled : (∀ directory, ¬ l.MountAt h directory) →
    ((l.cleanup unmount.recording).perform h).2.runs = h.runs
  ok : ((l.cleanup unmount).perform h).1 = .ok () ↔
    ∀ a ∈ attempts unmount h (l.chores h), a.outcome = .ok ()
  /-- A cleanup that does not succeed reports each failure once, in order. -/
  failed : (∃ a ∈ attempts unmount h (l.chores h), a.outcome ≠ .ok ()) →
    ((l.cleanup unmount).perform h).1 =
      .error (.cleanup ((attempts unmount h (l.chores h)).filterMap Attempt.message?))
  left : ((l.cleanup unmount).perform h).2 =
    (leftBy unmount h (l.chores h)).tellAll
      (((attempts unmount h (l.chores h)).filterMap Attempt.message?).map .cleanupFailure)
  /-- A directory that is not there when its turn comes counts as removed. -/
  missing : ∀ a ∈ attempts unmount h (l.chores h), ∀ directory,
    a.chore.directory? = some directory → a.before.LeadsNowhere false directory →
      a.outcome = .ok () ∧ a.after = a.before
  gone : ∀ a ∈ attempts unmount h (l.chores h), ∀ directory,
    a.chore.directory? = some directory → a.outcome = .ok () →
      a.after.LeadsNowhere false directory
  /-- Beside what the unmounter does, nothing changes outside the directories. -/
  lessened : Host.Lessened (l.Inside unmount h) (l.unmounted unmount h)
    (leftBy unmount h (l.chores h))

/-- Every cleanup is thorough: whatever is left, on every host, and whatever the unmounter does. -/
theorem cleanup_thorough (unmount : Detacher) (l : Leftovers) (h : Host) :
    Thorough unmount l h where
  due c := by
    rw [chores, List.mem_append, mem_mountChores_iff, mem_pullChores_iff]
    simp only [mountAt_iff]
  ordered := chores_ordered l h
  attempted := map_chore_attempts unmount h _
  called directory hmount := by
    rw [runs_cleanup, unmounted, mountAt_iff.mp hmount, Detacher.perform_recording]
  notCalled hnone := by
    have hmounted : l.mounted h = none :=
      Option.eq_none_iff_forall_ne_some.mpr fun directory hthere =>
        hnone directory (mountAt_iff.mpr hthere)
    rw [runs_cleanup, unmounted, hmounted]
  ok := by
    rw [perform_cleanup, ← failures_eq_nil_iff]
    exact verdict_eq_ok_iff
  failed := by
    rintro ⟨a, ha, hfailed⟩
    rw [perform_cleanup]
    exact verdict_of_ne_nil fun hnone => hfailed (failures_eq_nil_iff.mp hnone a ha)
  left := by
    rw [perform_cleanup]
    rfl
  missing a ha directory hdirectory hnowhere := by
    have hnothing := Action.perform_removeAll_of_leadsNowhere hnowhere
    rw [eq_make_of_mem_attempts ha]
    simp only [Attempt.make, Chore.perform_of_directory? hdirectory, hnothing, and_self]
  gone a ha directory hdirectory hdone := by
    have hrun := congrArg (fun b : Attempt => (b.outcome, b.after)) (eq_make_of_mem_attempts ha)
    simp only [Attempt.make, Chore.perform_of_directory? hdirectory, hdone] at hrun
    exact (Action.removed_of_removeAll hrun.symm).nowhere
  lessened := lessened_cleanup unmount l h

/-- A host on which the directory of the pulled image lies in that of the mount. -/
def nestedHost : Host :=
  .plain ⟨0, 0, 0, []⟩ [["mount"], ["mount", "root"], ["mount", "pull"]] []

def nestedLeftovers : Leftovers :=
  ⟨true, ⟨"/mount/root"⟩, some ⟨"/mount"⟩, some ⟨"/mount/pull"⟩⟩

/-- The directory of the pulled image went with that of the mount, and so only the unmounter
has failed. -/
example :
    ((nestedLeftovers.cleanup (.scripted alwaysFails)).perform nestedHost).1 =
      .error (.cleanup ["while unmounting fuse directory /mount/root: internal error: busy"]) := by
  decide +kernel

end Leftovers
end ContainerLaunch
