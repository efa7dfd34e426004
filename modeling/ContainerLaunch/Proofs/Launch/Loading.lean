import Mathlib.Data.List.Forall2
import ContainerLaunch.Image.Load
import ContainerLaunch.Proofs.Descriptors
/-!
# Loading images

How an image was opened, what it then is, and what loading it leaves: one more
descriptor, and nothing else on the host.
-/

namespace ContainerLaunch

namespace Image

variable {policy : Policy} {inspect : SifReader} {p : Path} {writable : Bool} {h h' : Host}
  {i : Image}

theorem quiet_openFile (p : Path) (writable : Bool) : Action.Quiet (openFile p writable) := by
  refine Action.quiet_bind (Action.quiet_check _ _) fun inode => ?_
  refine Action.quiet_ite (Action.quiet_openFile _ _) ?_
  exact Action.quiet_bind (Action.quiet_check _ _) Action.quiet_openFound

theorem quiet_openFallback (p : Path) (writable : Bool) :
    Action.Quiet (openFallback p writable) := by
  refine Action.quiet_bind (Action.quiet_outcome (quiet_openFile p writable)) fun r => ?_
  split
  · exact Action.quiet_pure _
  · refine Action.quiet_bind (Action.quiet_notify _) fun _ => ?_
    exact Action.quiet_bind (quiet_openFile _ _) fun _ => Action.quiet_pure _
  · exact Action.quiet_fail _

theorem quiet_ofOpenFile (inspect : SifReader) (file : OpenFile) (writable : Bool) :
    Action.Quiet (ofOpenFile inspect file writable) := by
  refine Action.quiet_ite ?_ (Action.quiet_ofExcept _)
  exact Action.quiet_bind (Action.quiet_observe _) fun _ => Action.quiet_pure _

theorem quiet_load (policy : Policy) (inspect : SifReader) (p : Path) (writable : Bool) :
    Action.Quiet (load policy inspect p writable) := by
  refine Action.quiet_bind (quiet_openFallback p writable) fun opened => ?_
  refine Action.quiet_bind (quiet_ofOpenFile inspect _ _) fun image => ?_
  refine Action.quiet_bind (Action.quiet_observe _) fun users => ?_
  exact Action.quiet_bind (Action.quiet_ofExcept _) fun _ => Action.quiet_pure _

/-- Opening an image opens its path in one way or another, or leaves the host as it is. -/
theorem openFile_cases {x : Except Error OpenFile}
    (hrun : (openFile p writable).perform h = (x, h')) :
    (∃ access file, x = .ok file ∧
        (Action.openFile access p).perform h = (.ok file, h')) ∨
      ∃ e, x = .error e ∧ h' = h := by
  cases x with
  | error e =>
      refine Or.inr ⟨e, rfl, ?_⟩
      rcases Action.perform_bind_error.mp hrun with hstat | ⟨inode, h₁, hstat, hopen⟩
      · exact (Action.perform_check_error.mp hstat).2.symm
      · obtain ⟨-, rfl⟩ := Action.perform_check_ok.mp hstat
        by_cases hdir : inode.isDirectory = true
        · rw [if_pos hdir] at hopen
          exact (Action.perform_openFile_error.mp hopen).2.symm
        · rw [if_neg hdir] at hopen
          rcases Action.perform_bind_error.mp hopen with hfail | ⟨found, h₂, -, hnever⟩
          · exact (Action.perform_check_error.mp hfail).2.symm
          · rw [Action.perform_openFound] at hnever
            cases hnever
  | ok file =>
      refine Or.inl ?_
      obtain ⟨inode, h₁, hstat, hopen⟩ := Action.perform_bind_ok.mp hrun
      obtain ⟨-, rfl⟩ := Action.perform_check_ok.mp hstat
      by_cases hdir : inode.isDirectory = true
      · rw [if_pos hdir] at hopen
        exact ⟨.directory, file, rfl, hopen⟩
      · rw [if_neg hdir] at hopen
        obtain ⟨found, h₂, hfound, hfile⟩ := Action.perform_bind_ok.mp hopen
        obtain ⟨hopening, rfl⟩ := Action.perform_check_ok.mp hfound
        rw [Action.perform_openFound] at hfile
        cases hfile
        exact ⟨_, _, rfl, Action.perform_openFile_ok.mpr ⟨hopening, rfl, rfl⟩⟩

/-- An image that could be opened was opened once, after the user was told if it could not be
opened as asked. -/
theorem openFallback_ok {opened : OpenFile × Bool}
    (hrun : (openFallback p writable).perform h = (.ok opened, h')) :
    ∃ access ns, (Action.openFile access p).perform (h.tellAll ns) = (.ok opened.1, h') := by
  obtain ⟨x, h₁, houtcome, hrest⟩ := Action.perform_bind_ok.mp hrun
  rcases openFile_cases (Action.perform_outcome_ok.mp houtcome) with
    ⟨access, file, rfl, hopen⟩ | ⟨e, rfl, rfl⟩
  · obtain ⟨rfl, rfl⟩ := Action.perform_pure_ok.mp hrest
    exact ⟨access, [], by rwa [Host.tellAll_nil]⟩
  · -- A second attempt finds the host as the first one did.
    split at hrest
    · contradiction
    · next place hplace =>
      rw [Action.perform_notify_bind] at hrest
      obtain ⟨file, h₂, hagain, hdone⟩ := Action.perform_bind_ok.mp hrest
      obtain ⟨rfl, rfl⟩ := Action.perform_pure_ok.mp hdone
      rcases openFile_cases hagain with ⟨access, again, hfile, hopen⟩ | ⟨e', hfail, -⟩
      · cases hfile
        exact ⟨access, [.openedReadOnly place], hopen⟩
      · cases hfail
    · simp at hrest

/-- An image is loaded by opening it and telling what it is, and then the policy
has to allow it. -/
theorem load_ok :
    (load policy inspect p writable).perform h = (.ok i, h') ↔
      ∃ opened h₁, (openFallback p writable).perform h = (.ok opened, h₁) ∧
        (ofOpenFile inspect opened.1 opened.2).perform h₁ = (.ok i, h') ∧
        checkPolicy policy h'.users i = .ok () := by
  simp only [load, Action.perform_bind_ok]
  constructor
  · rintro ⟨opened, h₁, hopen, image, h₂, himage, users, h₃, husers, hcheck⟩
    obtain ⟨rfl, rfl⟩ := Action.perform_observe_ok.mp husers
    simp only [Action.perform_ofExcept_ok, Action.perform_pure_ok] at hcheck
    obtain ⟨_, _, ⟨hallowed, rfl⟩, rfl, rfl⟩ := hcheck
    exact ⟨opened, h₁, hopen, himage, hallowed⟩
  · rintro ⟨opened, h₁, hopen, himage, hallowed⟩
    refine ⟨opened, h₁, hopen, i, h', himage, h'.users, h', rfl, (), h', ?_, rfl⟩
    rw [hallowed]
    rfl

/-- The format and the partitions of what was opened: those of a directory, of a bare file
system, or of a SIF file as its reader gives them. -/
inductive Contents (inspect : SifReader) (file : OpenFile) : ImageFormat → List Partition → Prop
  | sandbox (hdir : file.inode.isDirectory = true) :
      Contents inspect file .sandbox [.bare .sandbox]
  | squashfs (hdir : file.inode.isDirectory = false)
      (hmagic : formatOf file.inode.content = some .squashfs) :
      Contents inspect file .squashfs [.bare .squashfs]
  | ext3 (hdir : file.inode.isDirectory = false)
      (hmagic : formatOf file.inode.content = some .ext3) :
      Contents inspect file .ext3 [.bare .ext3]
  | sif (hdir : file.inode.isDirectory = false)
      (hmagic : formatOf file.inode.content = some .sif) (layout : SifContents)
      (hlayout : inspect file.inode.content = .ok layout) :
      Contents inspect file (if layout.oci then .ociSif else .sif) layout.partitions

/-- An image that is what an open file has in it; whatever part it is to play, it is first
taken for the root image. -/
structure IsOf (inspect : SifReader) (file : OpenFile) (i : Image) : Prop where
  file_eq : i.file = file
  path_eq : i.path = pathOf file
  usage_eq : i.usage = .root
  contents : Contents inspect file i.format i.partitions

theorem formatOf_cases {content : ByteArray} {format : ImageFormat}
    (hformat : formatOf content = some format) :
    format = .squashfs ∨ format = .sif ∨ format = .ext3 := by
  unfold formatOf at hformat
  split at hformat
  · exact Or.inl (Option.some.inj hformat).symm
  · split at hformat
    · exact Or.inr (Or.inl (Option.some.inj hformat).symm)
    · split at hformat
      · exact Or.inr (Or.inr (Option.some.inj hformat).symm)
      · cases hformat

theorem ofFile_ok {file : OpenFile} (hdir : file.inode.isDirectory = false)
    (hfile : ofFile inspect file writable = .ok i) : IsOf inspect file i := by
  unfold ofFile at hfile
  cases hmagic : formatOf file.inode.content with
  | none => simp [hmagic] at hfile
  | some format =>
      rw [hmagic] at hfile
      rcases formatOf_cases hmagic with rfl | rfl | rfl
      · cases hfile
        exact ⟨rfl, rfl, rfl, .squashfs hdir hmagic⟩
      · obtain ⟨layout, hlayout, himage⟩ := Error.bind_eq_ok.mp hfile
        cases himage
        exact ⟨rfl, rfl, rfl, .sif hdir hmagic layout hlayout⟩
      · cases hfile
        exact ⟨rfl, rfl, rfl, .ext3 hdir hmagic⟩

theorem ofOpenFile_ok {file : OpenFile}
    (hrun : (ofOpenFile inspect file writable).perform h = (.ok i, h')) :
    IsOf inspect file i ∧ h = h' := by
  unfold ofOpenFile at hrun
  by_cases hdir : file.inode.isDirectory = true
  · simp only [hdir, if_true, Action.perform_observe_bind, Action.perform_pure_ok] at hrun
    obtain ⟨rfl, rfl⟩ := hrun
    exact ⟨⟨rfl, rfl, rfl, .sandbox hdir⟩, rfl⟩
  · rw [if_neg hdir] at hrun
    obtain ⟨hfile, rfl⟩ := Action.perform_ofExcept_ok.mp hrun
    exact ⟨ofFile_ok (Bool.eq_false_iff.mpr hdir) hfile, rfl⟩

/-- An image that was opened for a path on a host, may be used under the policy and
plays a part. -/
def OpenedFor (policy : Policy) (inspect : SifReader) (h : Host) (role : ImageRole) (p : Path)
    (writable : Bool) (i : Image) : Prop :=
  ∃ h₀ h₁ loaded, h₀.lasting = h.lasting ∧
    (load policy inspect p writable).perform h₀ = (.ok loaded, h₁) ∧
    i = { loaded with usage := role }

theorem OpenedFor.usage_eq {role : ImageRole}
    (hopened : OpenedFor policy inspect h role p writable i) : i.usage = role := by
  obtain ⟨_, _, _, -, -, rfl⟩ := hopened
  rfl

theorem checkPolicy_usage (d : Directory) (role : ImageRole) :
    checkPolicy policy d { i with usage := role } = checkPolicy policy d i :=
  rfl

/-- No image is opened for a launch unless the policy allows it. -/
theorem OpenedFor.allowed {role : ImageRole}
    (hopened : OpenedFor policy inspect h role p writable i) :
    checkPolicy policy h.users i = .ok () := by
  obtain ⟨h₀, h₁, loaded, hlast, hload, rfl⟩ := hopened
  obtain ⟨opened, h₂, hopen, himage, hallowed⟩ := load_ok.mp hload
  have husers : h₁.users = h.users := by
    have hquiet := (quiet_load policy inspect p writable).lasting_eq hload
    exact Host.users_eq_of_lasting (hquiet.trans hlast)
  rw [checkPolicy_usage, ← husers]
  exact hallowed

/-- What a successful run of `load` says about its image. -/
theorem openedFor_of_load {h₀ : Host} (hlast : h₀.lasting = h.lasting)
    (hload : (load policy inspect p writable).perform h₀ = (.ok i, h')) :
    OpenedFor policy inspect h .root p writable i := by
  refine ⟨h₀, h', i, hlast, hload, ?_⟩
  obtain ⟨opened, h₁, -, himage, -⟩ := load_ok.mp hload
  rw [← (ofOpenFile_ok himage).1.usage_eq]

/-- Loading an image opens it and nothing else. -/
theorem load_opened (hload : (load policy inspect p writable).perform h = (.ok i, h')) :
    h.Opened [i.file.tableEntry] h' := by
  obtain ⟨opened, h₁, hopen, himage, -⟩ := load_ok.mp hload
  obtain ⟨access, ns, hfile⟩ := openFallback_ok hopen
  obtain ⟨hof, rfl⟩ := ofOpenFile_ok himage
  rw [hof.file_eq]
  exact (Action.openFile_opened hfile).of_tellAll

/-! ## Loading several images -/

theorem exists_of_mem_of_forall₂ {α : Type} {rel : α → Image → Prop} {as : List α}
    {is : List Image} (hall : List.Forall₂ rel as is) (hi : i ∈ is) : ∃ a, rel a i := by
  induction hall with
  | nil => cases hi
  | cons hfirst hrest ih =>
      rcases List.mem_cons.mp hi with rfl | hi
      · exact ⟨_, hfirst⟩
      · exact ih hi

/-- Of images that were all opened for one part, those that play a part are all or none. -/
theorem filter_usage_eq {α : Type} {role : ImageRole} {path : α → Path} {writes : α → Bool}
    {as : List α} {is : List Image}
    (hall : List.Forall₂ (fun a i => OpenedFor policy inspect h role (path a) (writes a) i) as is)
    (other : ImageRole) :
    (is.filter fun i => i.usage = other) = if role = other then is else [] := by
  have husage : ∀ i ∈ is, i.usage = role := by
    intro i hi
    obtain ⟨a, hopened⟩ := exists_of_mem_of_forall₂ hall hi
    exact hopened.usage_eq
  by_cases hrole : role = other
  · rw [if_pos hrole, List.filter_eq_self]
    intro i hi
    exact decide_eq_true ((husage i hi).trans hrole)
  · rw [if_neg hrole, List.filter_eq_nil_iff]
    intro i hi
    rw [husage i hi]
    simpa using hrole

/-- Images that are loaded one after the other to play one part, while the user may be told
something in between. -/
inductive LoadsEach (policy : Policy) (inspect : SifReader) (role : ImageRole) :
    List (Path × Bool) → List Image → Host → Host → Prop
  | nil (h : Host) : LoadsEach policy inspect role [] [] h h
  | cons {p : Path} {writable : Bool} {rest : List (Path × Bool)} {loaded : Image}
      {images : List Image} {h h₁ h' : Host} (ns : List Notice)
      (hload : (load policy inspect p writable).perform h = (.ok loaded, h₁))
      (hrest : LoadsEach policy inspect role rest images (h₁.tellAll ns) h') :
      LoadsEach policy inspect role ((p, writable) :: rest)
        ({ loaded with usage := role } :: images) h h'

namespace LoadsEach

variable {role : ImageRole} {specs : List (Path × Bool)} {images : List Image} {h₀ : Host}

theorem lasting_eq (hloads : LoadsEach policy inspect role specs images h h') :
    h'.lasting = h.lasting := by
  induction hloads with
  | nil => rfl
  | @cons _ _ _ _ _ h h₁ _ ns hload hrest ih =>
      have hfirst : h₁.lasting = h.lasting := (quiet_load _ _ _ _).lasting_eq hload
      exact ih.trans hfirst

/-- The images are those that were asked for, in order. -/
theorem openedFor (hlast : h₀.lasting = h.lasting)
    (hloads : LoadsEach policy inspect role specs images h₀ h') :
    List.Forall₂ (fun spec image => OpenedFor policy inspect h role spec.1 spec.2 image)
      specs images := by
  induction hloads with
  | nil => exact .nil
  | @cons _ _ _ _ _ h₀ h₁ _ ns hload hrest ih =>
      have hfirst : h₁.lasting = h₀.lasting := (quiet_load _ _ _ _).lasting_eq hload
      exact .cons ⟨h₀, h₁, _, hlast, hload, rfl⟩ (ih (hfirst.trans hlast))

theorem usage_eq (hloads : LoadsEach policy inspect role specs images h h') :
    ∀ i ∈ images, i.usage = role := by
  induction hloads with
  | nil => exact nofun
  | cons ns hload hrest ih =>
      intro i hi
      rcases List.mem_cons.mp hi with rfl | hi
      · rfl
      · exact ih i hi

theorem opened (hloads : LoadsEach policy inspect role specs images h h') :
    h.Opened (images.map fun i => i.file.tableEntry) h' := by
  induction hloads with
  | nil => exact .of_same rfl
  | cons ns hload hrest ih => exact (load_opened hload).trans ih.of_tellAll

end LoadsEach
end Image

end ContainerLaunch
