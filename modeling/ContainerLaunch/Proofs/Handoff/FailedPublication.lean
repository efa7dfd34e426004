import Mathlib.Data.List.TakeWhile
import ContainerLaunch.Proofs.Handoff.Publication
/-!
# What a failed publication leaves open

A descriptor that the next stage is to find open must not be closed when a program is
executed.  A publication sees to that for the descriptors of its plan, one after the other,
and only when nothing else can fail any more.  But a descriptor of the plan may turn out not
to be open, and then those before it stay open across an execution, although the plan was
not published.
-/

namespace ContainerLaunch

namespace Host

variable {h : Host} {fds : List Int32} {fd : Int32} {m n : Nat}

/-! ## The flag of a descriptor -/

/-- Whether a number in a plan is that of an open descriptor. -/
def isOpen (h : Host) (fd : Int32) : Bool :=
  0 ≤ fd && (h.descriptor? fd.toNatClampNeg).isSome

/-- Whether an open descriptor is closed when a program is executed. -/
def closesOnExec? (h : Host) (number : Nat) : Option Bool :=
  (h.descriptor? number).map Descriptor.closeOnExec

/-- The host with several descriptors that stay open when a program is executed. -/
def keepingAcrossExec (h : Host) (fds : List Int32) : Host :=
  fds.foldl (fun h fd => h.keepAcrossExec fd.toNatClampNeg) h

theorem descriptor?_keepAcrossExec (h : Host) (m n : Nat) :
    (h.keepAcrossExec m).descriptor? n = (h.descriptor? n).map fun d =>
      if d.number = m then { d with closeOnExec := false } else d := by
  have hnumber : ((fun d : Descriptor => d.number == n) ∘ fun d : Descriptor =>
      if d.number = m then { d with closeOnExec := false } else d) =
        fun d : Descriptor => d.number == n := by
    funext d
    by_cases hd : d.number = m <;> simp [hd]
  simp only [descriptor?, keepAcrossExec, List.find?_map, hnumber]

theorem isOpen_keepAcrossExec (h : Host) (m : Nat) : (h.keepAcrossExec m).isOpen = h.isOpen := by
  funext fd
  simp only [isOpen, descriptor?_keepAcrossExec, Option.isSome_map]

/-- Only the flag of the descriptor itself is lost. -/
theorem closesOnExec?_keepAcrossExec (h : Host) (m n : Nat) :
    (h.keepAcrossExec m).closesOnExec? n =
      if n = m then (h.closesOnExec? n).map fun _ => false else h.closesOnExec? n := by
  simp only [closesOnExec?, descriptor?_keepAcrossExec, Option.map_map]
  cases hfind : h.descriptor? n with
  | none => simp
  | some d =>
      have hnumber : d.number = n := by simpa using List.find?_some hfind
      by_cases hsame : n = m <;> simp [hnumber, hsame]

theorem closesOnExec?_keepingAcrossExec (h : Host) (fds : List Int32) (n : Nat) :
    (h.keepingAcrossExec fds).closesOnExec? n =
      if n ∈ fds.map Int32.toNatClampNeg then (h.closesOnExec? n).map fun _ => false
      else h.closesOnExec? n := by
  induction fds generalizing h with
  | nil => rfl
  | cons fd rest ih =>
      change ((h.keepAcrossExec fd.toNatClampNeg).keepingAcrossExec rest).closesOnExec? n = _
      rw [ih, closesOnExec?_keepAcrossExec]
      by_cases hfirst : n = fd.toNatClampNeg
      · simp [hfirst]
      · simp [hfirst]

theorem exists_flag_of_isOpen (hopen : h.isOpen fd = true) :
    ∃ flag, h.closesOnExec? fd.toNatClampNeg = some flag := by
  simp only [isOpen, Bool.and_eq_true, Option.isSome_iff_exists] at hopen
  obtain ⟨-, d, hd⟩ := hopen
  exact ⟨d.closeOnExec, by rw [closesOnExec?, hd, Option.map_some]⟩

/-- Of descriptors that are open, each has lost the flag, and no other one has. -/
theorem closesOnExec?_of_isOpen (hopen : ∀ fd ∈ fds, h.isOpen fd = true) (n : Nat) :
    (h.keepingAcrossExec fds).closesOnExec? n =
      if n ∈ fds.map Int32.toNatClampNeg then some false else h.closesOnExec? n := by
  rw [closesOnExec?_keepingAcrossExec]
  by_cases hmem : n ∈ fds.map Int32.toNatClampNeg
  · rw [if_pos hmem, if_pos hmem]
    obtain ⟨fd, hfd, rfl⟩ := List.mem_map.mp hmem
    obtain ⟨flag, hflag⟩ := exists_flag_of_isOpen (hopen fd hfd)
    rw [hflag, Option.map_some]
  · rw [if_neg hmem, if_neg hmem]

/-- All flags are as they were exactly if none of the descriptors had one to lose. -/
theorem flags_kept_iff (hopen : ∀ fd ∈ fds, h.isOpen fd = true) :
    (∀ n, (h.keepingAcrossExec fds).closesOnExec? n = h.closesOnExec? n) ↔
      ∀ fd ∈ fds, h.closesOnExec? fd.toNatClampNeg = some false := by
  constructor
  · intro hsame fd hfd
    rw [← hsame, closesOnExec?_of_isOpen hopen, if_pos (List.mem_map_of_mem hfd)]
  · intro hlost n
    rw [closesOnExec?_of_isOpen hopen]
    by_cases hmem : n ∈ fds.map Int32.toNatClampNeg
    · obtain ⟨fd, hfd, rfl⟩ := List.mem_map.mp hmem
      rw [if_pos hmem, hlost fd hfd]
    · rw [if_neg hmem]

end Host

namespace Region

variable {r r' : Region} {p : Plan} {payload : ByteArray} {h h' : Host} {e : Error}

/-! ## The descriptors of a plan -/

/-- What is said of a descriptor that is not open. -/
def notOpen : Error := .call "fcntl(F_GETFD)" .badDescriptor

theorem perform_keepOpen (fd : Int32) (h : Host) :
    (keepOpen fd).perform h =
      if h.isOpen fd then (.ok (), h.keepAcrossExec fd.toNatClampNeg)
      else (.error notOpen, h) := by
  unfold keepOpen
  rw [Action.perform_observe_bind]
  change (if h.isOpen fd = true then _ else _ : Action Unit).perform h = _
  by_cases hopen : h.isOpen fd = true
  · rw [if_pos hopen, if_pos hopen]
    rfl
  · rw [if_neg hopen, if_neg hopen]
    rfl

/-- The descriptors of a list are kept open up to the first that is not open, and without
one all of them are. -/
theorem perform_forM_keepOpen (fds : List Int32) (h : Host) :
    (fds.forM keepOpen).perform h =
      (if fds.all h.isOpen then .ok () else .error notOpen,
        h.keepingAcrossExec (fds.takeWhile h.isOpen)) := by
  induction fds generalizing h with
  | nil => rfl
  | cons fd rest ih =>
      change (keepOpen fd >>= fun _ => rest.forM keepOpen).perform h = _
      rw [Action.perform_bind, perform_keepOpen]
      by_cases hopen : h.isOpen fd = true
      · simp only [hopen, if_true, ih, Host.isOpen_keepAcrossExec, List.all_cons, Bool.true_and,
          List.takeWhile_cons]
        rfl
      · simp only [Bool.not_eq_true] at hopen
        simp only [hopen, Bool.false_eq_true, if_false, List.all_cons, Bool.false_and,
          List.takeWhile_cons]
        rfl

/-! ## Failed publications -/

/-- How far a publication that failed has come: not to the descriptors of the plan, because
something does not fit, or past some of them to one that is not open. -/
inductive StopsAfter (r : Region) (p : Plan) (payload : ByteArray) (h : Host) (e : Error) :
    List Int32 → Prop
  | unfit (hunfit : ¬ (p.Fits ∧ payload.size < r.capacity)) : StopsAfter r p payload h e []
  | atClosed {passed rest : List Int32} {fd : Int32} (hfits : p.Fits)
      (hroom : payload.size < r.capacity) (hkept : p.keptDescriptors = passed ++ fd :: rest)
      (hopen : ∀ d ∈ passed, h.isOpen d = true) (hclosed : h.isOpen fd = false)
      (herror : e = notOpen) : StopsAfter r p payload h e passed

theorem StopsAfter.isOpen {passed : List Int32} (hstop : StopsAfter r p payload h e passed) :
    ∀ fd ∈ passed, h.isOpen fd = true := by
  cases hstop with
  | unfit hunfit => exact fun fd hfd => absurd hfd List.not_mem_nil
  | atClosed hfits hroom hkept hopen hclosed herror => exact hopen

theorem exists_first_closed {fds : List Int32} (hclosed : fds.all h.isOpen = false) :
    ∃ fd rest, fds = fds.takeWhile h.isOpen ++ fd :: rest ∧ h.isOpen fd = false := by
  have hsplit := List.takeWhile_append_dropWhile (p := h.isOpen) (l := fds)
  cases hrest : fds.dropWhile h.isOpen with
  | nil =>
      rw [List.dropWhile_eq_nil_iff] at hrest
      rw [List.all_eq_true.mpr hrest] at hclosed
      cases hclosed
  | cons fd rest =>
      rw [hrest] at hsplit
      refine ⟨fd, rest, hsplit.symm, ?_⟩
      have hhead := List.head?_dropWhile_not h.isOpen fds
      rw [hrest] at hhead
      simpa using hhead

theorem stopsAfter_of_error
    (hrun : (publishing p payload).perform r h = ((.error e, r'), h')) :
    ∃ passed, StopsAfter r p payload h e passed ∧ h' = h.keepingAcrossExec passed := by
  rw [perform_publishing] at hrun
  cases hchecked : p.checkedTexts with
  | error e₁ =>
      rw [hchecked] at hrun
      cases hrun
      refine ⟨[], .unfit ?_, rfl⟩
      rintro ⟨hfits, -⟩
      rw [Plan.checkedTexts_ok.mpr ⟨hfits, rfl⟩] at hchecked
      cases hchecked
  | ok texts =>
      rw [hchecked] at hrun
      by_cases hroom : r.capacity ≤ payload.size
      · simp only [hroom, if_true] at hrun
        cases hrun
        exact ⟨[], .unfit fun hfit => absurd hfit.2 (Nat.not_lt.mpr hroom), rfl⟩
      · simp only [hroom, if_false, perform_forM_keepOpen] at hrun
        cases hopen : p.keptDescriptors.all h.isOpen with
        | true => simp [hopen] at hrun
        | false =>
            simp only [hopen, Bool.false_eq_true, if_false, Prod.mk.injEq,
              Except.error.injEq] at hrun
            obtain ⟨⟨he, -⟩, hhost⟩ := hrun
            obtain ⟨fd, rest, hkept, hclosed⟩ := exists_first_closed hopen
            refine ⟨_, .atClosed (Plan.checkedTexts_ok.mp hchecked).1 (Nat.lt_of_not_le hroom)
              hkept ?_ hclosed he.symm, hhost.symm⟩
            exact fun d hd => List.mem_takeWhile_imp hd

/-- A publication that fails leaves the region as it was.  Of the process it has changed
nothing but the flags of the descriptors before the one that it failed at: these stay open
when a program is executed.  So all flags are as they were if and only if these descriptors
had lost theirs before; in particular if the plan or the payload does not fit, or if the
first descriptor of the plan is not open. -/
theorem failed_publication_flags_iff
    (hrun : (publishing p payload).perform r h = ((.error e, r'), h')) :
    r' = r ∧ ∃ passed, StopsAfter r p payload h e passed ∧ h' = h.keepingAcrossExec passed ∧
      (∀ n, h'.closesOnExec? n =
        if n ∈ passed.map Int32.toNatClampNeg then some false else h.closesOnExec? n) ∧
      ((∀ n, h'.closesOnExec? n = h.closesOnExec? n) ↔
        ∀ fd ∈ passed, h.closesOnExec? fd.toNatClampNeg = some false) := by
  obtain ⟨passed, hstop, rfl⟩ := stopsAfter_of_error hrun
  refine ⟨eq_of_publishing_error hrun, passed, hstop, rfl, ?_, ?_⟩
  · exact Host.closesOnExec?_of_isOpen hstop.isOpen
  · exact Host.flags_kept_iff hstop.isOpen

/-! ## A descriptor that has no flag to lose, and one that loses it -/

/-- A process with a descriptor that is closed when a program is executed and one that is
not. -/
def twoDescriptors : Host :=
  { (default : Host) with descriptors := [⟨300, .socket, true⟩, ⟨301, .socket, false⟩] }

/-- A plan that keeps descriptors and does nothing else. -/
def keepingOnly (fds : List Int32) : Plan := { Plan.empty with keptDescriptors := fds }

theorem failed_publication_flags_iff_noFlag :
    ∃ h' passed, (publishing (keepingOnly [301, 302]) .empty).perform (zero 4096 ⟨false, 0⟩)
        twoDescriptors = ((.error notOpen, zero 4096 ⟨false, 0⟩), h') ∧
      StopsAfter (zero 4096 ⟨false, 0⟩) (keepingOnly [301, 302]) .empty twoDescriptors notOpen
        passed ∧
      ∀ n, h'.closesOnExec? n = twoDescriptors.closesOnExec? n := by
  have hrun : (publishing (keepingOnly [301, 302]) .empty).perform (zero 4096 ⟨false, 0⟩)
      twoDescriptors =
        ((.error notOpen, zero 4096 ⟨false, 0⟩), twoDescriptors.keepAcrossExec 301) := rfl
  obtain ⟨-, passed, hstop, -, -, hflags⟩ := failed_publication_flags_iff hrun
  refine ⟨_, passed, hrun, hstop, hflags.mpr ?_⟩
  intro fd hfd
  have hopen := hstop.isOpen fd hfd
  cases hstop with
  | unfit hunfit => cases hfd
  | atClosed hfits hroom hkept _ hclosed herror =>
      have hmem : fd ∈ [301, 302] := by
        change fd ∈ (keepingOnly [301, 302]).keptDescriptors
        rw [hkept]
        exact List.mem_append_left _ hfd
      simp only [List.mem_cons, List.not_mem_nil, or_false] at hmem
      rcases hmem with rfl | rfl
      · rfl
      · cases hopen

/-- The publication fails at a descriptor that is not open, and an open one before it, which
was to be closed when a program is executed, is not closed any more. -/
theorem unpublished_descriptor_stays_open :
    ∃ h', (publishing (keepingOnly [301, 300, 302]) .empty).perform (zero 4096 ⟨false, 0⟩)
        twoDescriptors = ((.error notOpen, zero 4096 ⟨false, 0⟩), h') ∧
      twoDescriptors.closesOnExec? 300 = some true ∧ h'.closesOnExec? 300 = some false :=
  ⟨_, rfl, rfl, rfl⟩

end Region
end ContainerLaunch
