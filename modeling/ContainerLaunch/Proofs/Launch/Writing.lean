import ContainerLaunch.Proofs.Launch.Loading
/-!
# Images that may be written

Whether an image that was opened may be written.  A file is opened as it was asked for, and
once more for reading if it lies on a read-only file system.  A directory is always opened
for reading, and whether it may be written is asked of the path that was recorded for it.
-/

namespace ContainerLaunch

namespace Restrictions

variable {r : Restrictions} {place : Place}

/-- Where only writing fails because the file system is read-only, reading does not. -/
theorem refusal_false_of_readOnly (hrefused : r.refusal true place = some .readOnly) :
    r.refusal false place = none := by
  unfold refusal at hrefused ⊢
  by_cases hdenied : r.denied.any place.isUnder = true
  · rw [if_pos hdenied] at hrefused
    cases hrefused
  · simp [hdenied]

theorem refusal_false_ne_readOnly : r.refusal false place ≠ some .readOnly := by
  unfold refusal
  by_cases hdenied : r.denied.any place.isUnder = true
  · rw [if_pos hdenied]
    decide
  · simp [hdenied]

end Restrictions

namespace Host

variable {h h' : Host} {p : Path} {place : Place} {inode : Inode}

theorem find_ok :
    h.find p = .ok (place, inode) ↔ h.resolve true p = .ok place ∧ h.look place = some inode := by
  unfold find
  cases h.resolve true p with
  | error cause => simp [Bind.bind, Except.bind]
  | ok found =>
      cases hlook : h.look found with
      | none =>
          simp only [Bind.bind, Except.bind, hlook, reduceCtorEq, Except.ok.injEq, false_iff]
          rintro ⟨rfl, hsome⟩
          rw [hlook] at hsome
          cases hsome
      | some other =>
          simp only [Bind.bind, Except.bind, hlook, Except.ok.injEq, Prod.mk.injEq]
          constructor
          · rintro ⟨rfl, rfl⟩
            exact ⟨rfl, hlook⟩
          · rintro ⟨rfl, hsome⟩
            exact ⟨rfl, Option.some.inj (hlook.symm.trans hsome)⟩

/-- What is opened is at the place to which the path leads. -/
theorem resolve_of_opening {access : Access} (hopening : h.opening access p = .ok (place, inode)) :
    h.resolve true p = .ok place := by
  unfold opening at hopening
  cases hplace : h.resolve true p with
  | error cause =>
      rw [hplace] at hopening
      cases hopening
  | ok found =>
      simp only [hplace, Bind.bind, Except.bind] at hopening
      split at hopening
      · cases hopening
      · split at hopening
        · cases hopening
        · split at hopening
          · cases hopening
          · split at hopening
            · cases hopening
            · rw [(Prod.mk.inj (Except.ok.inj hopening)).1]

/-- What is opened is what is found, unless something is in the way. -/
theorem opening_of_find (access : Access) (hfind : h.find p = .ok (place, inode)) :
    h.opening access p =
      match h.restrictions.refusal (access == .readWrite) place with
      | some errno => .error (.system errno)
      | none =>
        if inode.isDirectory && access == .readWrite then .error (.system .isDirectory)
        else if !inode.isDirectory && access == .directory then .error (.system .notDirectory)
        else .ok (place, inode) := by
  obtain ⟨hplace, hlook⟩ := find_ok.mp hfind
  cases hrefused : h.restrictions.refusal (access == .readWrite) place with
  | some errno => simp [opening, hplace, hrefused, Bind.bind, Except.bind]
  | none => simp [opening, hplace, hrefused, hlook, Bind.bind, Except.bind]

/-- A directory can be opened for reading if nothing refuses that. -/
theorem opening_directory (hfind : h.find p = .ok (place, inode))
    (hdir : inode.isDirectory = true) :
    h.opening .directory p =
      match h.restrictions.refusal false place with
      | some errno => .error (.system errno)
      | none => .ok (place, inode) := by
  have hopening := opening_of_find .directory hfind
  have hreading : (Access.directory == Access.readWrite) = false := rfl
  simpa only [hreading, hdir, Bool.not_true, Bool.and_false, Bool.false_and, Bool.false_eq_true,
    if_false] using hopening

/-- A file can be opened for reading or for writing if nothing refuses that. -/
theorem opening_file (writable : Bool) (hfind : h.find p = .ok (place, inode))
    (hfile : inode.isDirectory = false) :
    h.opening (if writable then .readWrite else .read) p =
      match h.restrictions.refusal writable place with
      | some errno => .error (.system errno)
      | none => .ok (place, inode) := by
  have hopening := opening_of_find (if writable then .readWrite else .read) hfind
  have hwriting : ((if writable = true then Access.readWrite else .read) == .readWrite) =
      writable := by cases writable <;> rfl
  have hanything : ((if writable = true then Access.readWrite else .read) == .directory) =
      false := by cases writable <;> rfl
  simpa only [hwriting, hanything, hfile, Bool.false_and, Bool.and_false, Bool.false_eq_true,
    if_false] using hopening

end Host

namespace Image

variable {policy : Policy} {inspect : SifReader} {p : Path} {writable : Bool} {h h' : Host}
  {i : Image} {place : Place} {inode : Inode}

/-! ## Opening an image -/

/-- Why what a path leads to cannot be opened as asked, if it cannot.  A directory is never
opened for writing. -/
def refusalOf (h : Host) (place : Place) (inode : Inode) (writable : Bool) : Option Errno :=
  h.restrictions.refusal (writable && !inode.isDirectory) place

/-- Only a file that is opened for writing meets a read-only file system. -/
theorem refusalOf_readOnly (hrefused : refusalOf h place inode writable = some .readOnly) :
    writable = true ∧ inode.isDirectory = false ∧
      h.restrictions.refusal true place = some .readOnly := by
  unfold refusalOf at hrefused
  cases hasked : (writable && !inode.isDirectory) with
  | false =>
      rw [hasked] at hrefused
      exact absurd hrefused Restrictions.refusal_false_ne_readOnly
  | true =>
      rw [hasked] at hrefused
      obtain ⟨hwrite, hfile⟩ : writable = true ∧ inode.isDirectory = false := by
        simpa using hasked
      exact ⟨hwrite, hfile, hrefused⟩

/-- What is opened for an image is what its path leads to, and only a refusal stops it. -/
theorem perform_openFile_of_find (writable : Bool) (hfind : h.find p = .ok (place, inode)) :
    (openFile p writable).perform h =
      match refusalOf h place inode writable with
      | none => (.ok ⟨h.freshNumber, place, inode⟩, h.addDescriptor (.file place))
      | some errno =>
        (.error (if inode.isDirectory then .atPath p (.system errno)
          else openError p (.system errno)), h) := by
  have hstat : h.stat p = .ok inode := by
    rw [Host.stat, hfind]
    rfl
  have hcheck : (Action.check (.atPath p) fun h => h.stat p).perform h = (.ok inode, h) :=
    Action.perform_check_ok.mpr ⟨hstat, rfl⟩
  unfold openFile refusalOf
  rw [Action.perform_bind, hcheck]
  by_cases hdir : inode.isDirectory = true
  · have hopening := Host.opening_directory hfind hdir
    simp only [hdir, if_true, Bool.not_true, Bool.and_false]
    cases hrefused : h.restrictions.refusal false place with
    | some errno =>
        rw [hrefused] at hopening
        exact Action.perform_openFile_error.mpr ⟨⟨_, hopening, rfl⟩, rfl⟩
    | none =>
        rw [hrefused] at hopening
        exact Action.perform_openFile_ok.mpr ⟨hopening, rfl, rfl⟩
  · have hdir : inode.isDirectory = false := Bool.eq_false_iff.mpr hdir
    have hopening := Host.opening_file writable hfind hdir
    simp only [hdir, if_false, Bool.false_eq_true, Bool.not_false, Bool.and_true]
    cases hrefused : h.restrictions.refusal writable place with
    | some errno =>
        rw [hrefused] at hopening
        have hfailed : (Action.check (openError p) fun h =>
            h.opening (if writable then .readWrite else .read) p).perform h =
              (.error (openError p (.system errno)), h) :=
          Action.perform_check_error.mpr ⟨⟨_, hopening, rfl⟩, rfl⟩
        rw [Action.perform_bind, hfailed]
    | none =>
        rw [hrefused] at hopening
        have hdone : (Action.check (openError p) fun h =>
            h.opening (if writable then .readWrite else .read) p).perform h =
              (.ok (place, inode), h) :=
          Action.perform_check_ok.mpr ⟨hopening, rfl⟩
        rw [Action.perform_bind, hdone]
        rfl

/-- What cannot be found is not opened. -/
theorem perform_openFile_of_missing (writable : Bool) {cause : IoError}
    (hfind : h.find p = .error cause) :
    (openFile p writable).perform h = (.error (.atPath p cause), h) := by
  have hstat : h.stat p = .error cause := by
    rw [Host.stat, hfind]
    rfl
  exact Action.perform_bind_error.mpr
    (Or.inl (Action.perform_check_error.mpr ⟨⟨cause, hstat, rfl⟩, rfl⟩))

/-- Where the file system is read-only an image that is to be written is opened for reading
instead; any other refusal is final. -/
theorem perform_openFallback_of_find (writable : Bool) (hfind : h.find p = .ok (place, inode)) :
    (openFallback p writable).perform h =
      match refusalOf h place inode writable with
      | none => (.ok (⟨h.freshNumber, place, inode⟩, writable), h.addDescriptor (.file place))
      | some errno =>
        if errno = .readOnly then
          (.ok (⟨h.freshNumber, place, inode⟩, false),
            (h.tell (.openedReadOnly p)).addDescriptor (.file place))
        else (.error (.atPath p (.system errno)), h) := by
  have hfirst := perform_openFile_of_find writable hfind
  cases hrefused : refusalOf h place inode writable with
  | none =>
      rw [hrefused] at hfirst
      have houtcome := Action.perform_outcome_ok.mpr hfirst
      rw [openFallback, Action.perform_bind, houtcome]
      rfl
  | some errno =>
      rw [hrefused] at hfirst
      have houtcome := Action.perform_outcome_ok.mpr hfirst
      rw [openFallback, Action.perform_bind, houtcome]
      by_cases hreadOnly : errno = .readOnly
      · subst hreadOnly
        obtain ⟨-, hfile, hwrite⟩ := refusalOf_readOnly hrefused
        have hreading : refusalOf (h.tell (.openedReadOnly p)) place inode false = none :=
          Restrictions.refusal_false_of_readOnly hwrite
        have hsecond := perform_openFile_of_find (h := h.tell (.openedReadOnly p)) false hfind
        rw [hreading] at hsecond
        simp only [hfile, Bool.false_eq_true, if_false, openError, if_true,
          Action.perform_notify_bind]
        rw [Action.perform_bind, hsecond]
        rfl
      · have hcause : openError p (.system errno) = .atPath p (.system errno) :=
          if_neg fun hsame => hreadOnly (by injection hsame)
        simp only [hcause, ite_self, hreadOnly, if_false, Action.perform_fail]

theorem perform_openFallback_of_missing (writable : Bool) {cause : IoError}
    (hfind : h.find p = .error cause) :
    (openFallback p writable).perform h = (.error (.atPath p cause), h) := by
  have houtcome := Action.perform_outcome_ok.mpr (perform_openFile_of_missing writable hfind)
  rw [openFallback, Action.perform_bind, houtcome]
  rfl

/-! ## Whether it may be written -/

/-- What has to hold for an image that is to be written: the path that was recorded for a
directory may be written, and nothing refuses to open a file for writing. -/
def MayBeWritten (h : Host) (i : Image) : Prop :=
  if i.file.inode.isDirectory then h.mayWrite i.path = true
  else h.restrictions.refusal true i.file.place = none

theorem ofFile_writable {file : OpenFile} (hfile : ofFile inspect file writable = .ok i) :
    i.writable = writable := by
  unfold ofFile at hfile
  cases hmagic : formatOf file.inode.content with
  | none => simp [hmagic] at hfile
  | some format =>
      rw [hmagic] at hfile
      rcases formatOf_cases hmagic with rfl | rfl | rfl
      · cases hfile
        rfl
      · obtain ⟨layout, -, himage⟩ := Error.bind_eq_ok.mp hfile
        cases himage
        rfl
      · cases hfile
        rfl

/-- An image that is what was opened may be written if it was opened for writing and, where
it is a directory, its path may be written. -/
theorem ofOpenFile_writable {file : OpenFile}
    (hrun : (ofOpenFile inspect file writable).perform h = (.ok i, h')) :
    i.writable = (writable && (!file.inode.isDirectory || h.mayWrite (pathOf file))) := by
  unfold ofOpenFile at hrun
  by_cases hdir : file.inode.isDirectory = true
  · simp only [hdir, if_true, Action.perform_observe_bind, Action.perform_pure_ok] at hrun
    obtain ⟨rfl, -⟩ := hrun
    rw [hdir, Bool.not_true, Bool.false_or]
  · rw [if_neg hdir] at hrun
    obtain ⟨hfile, -⟩ := Action.perform_ofExcept_ok.mp hrun
    rw [ofFile_writable hfile, Bool.eq_false_iff.mpr hdir, Bool.not_false, Bool.true_or,
      Bool.and_true]

/-- An image that was loaded is what its path leads to, and it may be written if that was
asked for and nothing stands in the way. -/
theorem load_writable_iff
    (hload : (load policy inspect p writable).perform h = (.ok i, h')) :
    h.find p = .ok (i.file.place, i.file.inode) ∧
      (i.writable = true ↔ writable = true ∧ i.MayBeWritten h') := by
  obtain ⟨opened, h₁, hopen, himage, -⟩ := load_ok.mp hload
  obtain ⟨hof, rfl⟩ := ofOpenFile_ok himage
  have hwritable := ofOpenFile_writable himage
  rw [MayBeWritten, hof.path_eq, hof.file_eq]
  rw [hwritable]
  cases hfind : h.find p with
  | error cause =>
      rw [perform_openFallback_of_missing writable hfind] at hopen
      cases hopen
  | ok found =>
      obtain ⟨place, inode⟩ := found
      rw [perform_openFallback_of_find writable hfind] at hopen
      cases hrefused : refusalOf h place inode writable with
      | none =>
          simp only [hrefused, Prod.mk.injEq, Except.ok.injEq] at hopen
          obtain ⟨rfl, rfl⟩ := hopen
          refine ⟨rfl, ?_⟩
          by_cases hdir : inode.isDirectory = true
          · simp [hdir]
          · have hdir : inode.isDirectory = false := Bool.eq_false_iff.mpr hdir
            rw [refusalOf, hdir, Bool.not_false, Bool.and_true] at hrefused
            simp only [hdir, Bool.not_false, Bool.true_or, Bool.and_true, Bool.false_eq_true,
              if_false, iff_self_and]
            rintro rfl
            exact hrefused
      | some errno =>
          by_cases hreadOnly : errno = .readOnly
          · subst hreadOnly
            obtain ⟨-, hfile, hwrite⟩ := refusalOf_readOnly hrefused
            simp only [hrefused, if_true, Prod.mk.injEq, Except.ok.injEq] at hopen
            obtain ⟨rfl, rfl⟩ := hopen
            have hrefuses : ((h.tell (.openedReadOnly p)).addDescriptor
                (.file place)).restrictions.refusal true place ≠ none := by
              rw [show ((h.tell (.openedReadOnly p)).addDescriptor (.file place)).restrictions =
                h.restrictions from rfl, hwrite]
              nofun
            simp [hfile, hrefuses]
          · simp only [hrefused, hreadOnly, if_false] at hopen
            cases hopen

/-- An image that was opened for some part may be written exactly if that was asked for and
nothing stood in the way when it was opened. -/
theorem OpenedFor.writable_iff {role : ImageRole}
    (hopened : OpenedFor policy inspect h role p writable i) :
    ∃ h₁, h₁.lasting = h.lasting ∧ (i.writable = true ↔ writable = true ∧ i.MayBeWritten h₁) := by
  obtain ⟨h₀, h₁, loaded, hlast, hload, rfl⟩ := hopened
  have hquiet : h₁.lasting = h₀.lasting := (quiet_load _ _ _ _).lasting_eq hload
  exact ⟨h₁, hquiet.trans hlast, (load_writable_iff hload).2⟩

theorem OpenedFor.mayBeWritten {role : ImageRole}
    (hopened : OpenedFor policy inspect h role p writable i) (hwritable : i.writable = true) :
    writable = true ∧ ∃ h₁, h₁.lasting = h.lasting ∧ i.MayBeWritten h₁ := by
  obtain ⟨h₁, hlast, hiff⟩ := hopened.writable_iff
  obtain ⟨hasked, hmay⟩ := hiff.mp hwritable
  exact ⟨hasked, h₁, hlast, hmay⟩

/-- An image that was opened for reading is not written. -/
theorem OpenedFor.not_writable_of_reading {role : ImageRole}
    (hopened : OpenedFor policy inspect h role p false i) : i.writable = false := by
  cases hwritable : i.writable with
  | false => rfl
  | true => cases (hopened.mayBeWritten hwritable).1

end Image
end ContainerLaunch
