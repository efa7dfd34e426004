import ContainerLaunch.Proofs.CanonicalPaths
import ContainerLaunch.Proofs.Footprint
import ContainerLaunch.Proofs.Launch.OtherOverlays
import ContainerLaunch.Proofs.RecordedPaths
/-!
# Images on read-only file systems

An image that lies on a read-only file system is opened for reading, also where it was to be
written.  A file is opened once more, and for a directory it is asked whether its recorded
path may be written.  That comes to the same as to ask for a reading image from the start,
provided that the recorded path of a directory is its own: the path then leads back to the
directory.
-/

namespace ContainerLaunch

namespace Restrictions

variable {r : Restrictions} {place : Place}

/-- On a read-only file system either nothing can be opened, or everything for reading
only. -/
theorem refusal_cases (hreadOnly : r.readOnly.any place.isUnder = true) :
    (∀ writing, r.refusal writing place = some .accessDenied) ∨
      r.refusal true place = some .readOnly ∧ r.refusal false place = none := by
  by_cases hdenied : r.denied.any place.isUnder = true
  · exact Or.inl fun writing => if_pos hdenied
  · refine Or.inr ⟨?_, ?_⟩
    · simp only [refusal, hdenied, hreadOnly, Bool.and_self, if_true, if_false, Bool.false_eq_true]
    · simp [refusal, hdenied]

theorem refusal_true_isSome (hreadOnly : r.readOnly.any place.isUnder = true) :
    (r.refusal true place).isSome = true := by
  rcases refusal_cases hreadOnly with hdenied | ⟨hwrite, -⟩
  · rw [hdenied true]
    rfl
  · rw [hwrite]
    rfl

end Restrictions

namespace Host

variable {h k base : Host} {p : Path} {place : Place} {inode : Inode}

/-- What is found at a place lies on a read-only file system, and under its own name.  A
directory that has the mark of removed files in its name is recorded under another one. -/
structure KeptReadOnly (h : Host) (place : Place) (inode : Inode) : Prop where
  readOnly : h.restrictions.readOnly.any place.isUnder = true
  noMark : inode.isDirectory = true → ¬ Image.EndsInMark place

/-- Whatever a path leads to lies on a read-only file system, also when more descriptors are
open. -/
def LeadsReadOnly (h : Host) (p : Path) : Prop :=
  ∀ (k : Host) place inode, h.Grown k → k.find p = .ok (place, inode) →
    h.KeptReadOnly place inode

theorem restrictions_eq_of_lasting (hlast : k.lasting = h.lasting) :
    k.restrictions = h.restrictions := by
  simpa [lasting] using congrArg Host.restrictions hlast

/-- What more descriptors lead to is seen nowhere but below `/proc`. -/
theorem Grown.find_eq_of_avoids (hgrown : h.Grown k) (havoid : h.Avoids processes p) :
    k.find p = h.find p := by
  have hrest : { k with journal := h.journal } = { h with descriptors := k.descriptors } :=
    congrArg (fun g : Host => { g with descriptors := k.descriptors, journal := h.journal })
      hgrown.lasting_eq
  have hdiffers : h.DiffersInProc { k with journal := h.journal } := by
    rw [hrest]
    exact ⟨rfl, fun _ _ => rfl, fun _ _ _ => rfl, fun _ _ => rfl⟩
  exact hdiffers.find_eq_of_avoids havoid

theorem KeptReadOnly.of_lasting (hlast : k.lasting = h.lasting)
    (hkept : h.KeptReadOnly place inode) : k.KeptReadOnly place inode where
  readOnly := by
    rw [restrictions_eq_of_lasting hlast]
    exact hkept.readOnly
  noMark := hkept.noMark

/-- The recorded path of a directory on a read-only file system may not be written. -/
theorem KeptReadOnly.mayWrite_eq_false (hstands : h.StandsSomewhere)
    (hfind : h.find p = .ok (place, inode)) (hdirectory : inode.isDirectory = true)
    (hkept : h.KeptReadOnly place inode) {file : OpenFile} (hfile : file.place = place)
    (hlast : k.lasting = h.lasting) : k.mayWrite (Image.pathOf file) = false := by
  obtain ⟨hplace, hlook⟩ := find_ok.mp hfind
  have htree := tree_eq_of_lasting hlast
  have hthere : Walk.isDirectoryAt k.look place = true := by
    rw [isDirectoryAt_eq_of_tree htree, Walk.isDirectoryAt, hlook]
    exact hdirectory
  have hreached : Walk.Reached k.look place :=
    reached_of_tree htree (reached_of_resolve hstands hplace)
  have hpath : Image.pathOf file = place.path := by
    rw [← hfile, Image.pathOf_eq_iff, hfile]
    exact hkept.noMark hdirectory
  rw [hpath, mayWrite]
  cases hfound : k.find place.path with
  | error cause => rfl
  | ok found =>
      obtain ⟨back, node⟩ := found
      -- the path leads back to the directory
      obtain rfl := resolve_path hreached (Walk.settled_of_isDirectoryAt hthere)
        (find_ok.mp hfound).1
      have hrefused := Restrictions.refusal_true_isSome hkept.readOnly
      rw [← restrictions_eq_of_lasting hlast] at hrefused
      simp only [Option.isNone_eq_false_iff, hrefused]

end Host

namespace Image

variable {policy : Policy} {inspect : SifReader} {p : Path} {writable : Bool} {h h' base : Host}
  {i : Image} {role : ImageRole}

/-- No image that lies on a read-only file system may be written, however it was asked
for. -/
theorem OpenedFor.not_writable (hstands : h.StandsSomewhere)
    (hopened : OpenedFor policy inspect h role p writable i)
    (hkept : h.KeptReadOnly i.file.place i.file.inode) : i.writable = false := by
  obtain ⟨h₀, h₁, loaded, hlast, hload, rfl⟩ := hopened
  obtain ⟨hfind, hwritable⟩ := load_writable_iff hload
  obtain ⟨opened, h₂, -, himage, -⟩ := load_ok.mp hload
  have hof := (ofOpenFile_ok himage).1
  have hquiet : h₁.lasting = h₀.lasting := (quiet_load _ _ _ _).lasting_eq hload
  rw [Bool.eq_false_iff]
  intro hwrites
  obtain ⟨-, hmay⟩ := hwritable.mp hwrites
  unfold MayBeWritten at hmay
  split at hmay
  · next hdirectory =>
    rw [hof.path_eq, ← hof.file_eq, (hkept.of_lasting hlast).mayWrite_eq_false
      (hstands.of_lasting hlast) hfind hdirectory rfl hquiet] at hmay
    cases hmay
  · have hrefused := Restrictions.refusal_true_isSome hkept.readOnly
    rw [← Host.restrictions_eq_of_lasting (hquiet.trans hlast), hmay] at hrefused
    cases hrefused

/-! ## Asked for writing or for reading -/

/-- How a file that was opened for an image is going to be used comes to the same: for
reading, or so for a directory that may not be written. -/
structure SameUse (base : Host) (x y : OpenFile × Bool) : Prop where
  file_eq : x.1 = y.1
  reading : y.2 = false
  kept : x.2 = true → x.1.inode.isDirectory = true ∧
    ∀ k : Host, k.lasting = base.lasting → k.mayWrite (pathOf x.1) = false

variable {place : Place} {inode : Inode}

/-- A directory is opened in the same way for writing and for reading. -/
theorem perform_openFallback_directory (writable : Bool) (hfind : h.find p = .ok (place, inode))
    (hdirectory : inode.isDirectory = true) :
    (openFallback p writable).perform h =
      match h.restrictions.refusal false place with
      | none => (.ok (⟨h.freshNumber, place, inode⟩, writable), h.addDescriptor (.file place))
      | some errno => (.error (.atPath p (.system errno)), h) := by
  rw [perform_openFallback_of_find writable hfind, refusalOf, hdirectory, Bool.not_true,
    Bool.and_false]
  cases hrefused : h.restrictions.refusal false place with
  | none => rfl
  | some errno =>
      have hother : errno ≠ .readOnly := by
        rintro rfl
        exact Restrictions.refusal_false_ne_readOnly hrefused
      exact if_neg hother

/-- What lies on a read-only file system is opened alike for writing and for reading. -/
theorem alike_openFallback (hstands : base.StandsSomewhere) (hreadOnly : base.LeadsReadOnly p) :
    Action.Alike base (SameUse base) (openFallback p true) (openFallback p false) := by
  intro h k hsame
  have hfinds : k.find p = h.find p := by
    rw [hsame.eq]
    rfl
  have hrestricts : k.restrictions = h.restrictions := by rw [hsame.eq]
  have hfresh : k.freshNumber = h.freshNumber := by
    rw [hsame.eq]
    rfl
  have hbase := hsame.grown.lasting_eq
  cases hfind : h.find p with
  | error cause =>
      rw [perform_openFallback_of_missing true hfind,
        perform_openFallback_of_missing false (hfinds.trans hfind)]
      exact .error hsame
  | ok found =>
      obtain ⟨place, inode⟩ := found
      have hkept := (hreadOnly h place inode hsame.grown hfind).of_lasting hbase
      by_cases hdirectory : inode.isDirectory = true
      · rw [perform_openFallback_directory true hfind hdirectory,
          perform_openFallback_directory false (hfinds.trans hfind) hdirectory, hrestricts, hfresh]
        cases h.restrictions.refusal false place with
        | none =>
            refine .ok ⟨rfl, rfl, fun _ => ⟨hdirectory, fun k₁ hlast => ?_⟩⟩
              (hsame.addDescriptor (.file place))
            exact hkept.mayWrite_eq_false (hstands.of_lasting hbase) hfind hdirectory rfl
              (hlast.trans hbase.symm)
        | some errno => exact .error hsame
      · have hfile : inode.isDirectory = false := Bool.eq_false_iff.mpr hdirectory
        rw [perform_openFallback_of_find true hfind,
          perform_openFallback_of_find false (hfinds.trans hfind)]
        simp only [refusalOf, hrestricts, hfresh, hfile, Bool.not_false, Bool.and_true]
        -- a file that could only be read is opened for that at the second attempt
        rcases Restrictions.refusal_cases hkept.readOnly with hdenied | ⟨hwrite, hread⟩
        · simp only [hdenied]
          exact .error hsame
        · have htold := hsame.tellAll [.openedReadOnly p] []
          rw [Host.tellAll_nil] at htold
          simp only [hwrite, hread, if_true]
          exact .ok ⟨rfl, rfl, fun hwrites => absurd hwrites Bool.false_ne_true⟩
            (htold.addDescriptor (.file place))

/-- What was opened for the same use is the same image, for reading. -/
theorem alike_ofOpenFile {x y : OpenFile × Bool} (huse : SameUse base x y) :
    Action.Alike base (fun i j => i = j ∧ i.writable = false) (ofOpenFile inspect x.1 x.2)
      (ofOpenFile inspect y.1 y.2) := by
  obtain ⟨file, writes⟩ := x
  obtain ⟨file', reads⟩ := y
  obtain ⟨hfile, hreads, hkept⟩ := huse
  simp only at hfile hreads hkept
  subst hfile hreads
  intro h k hsame
  unfold ofOpenFile
  by_cases hdirectory : file.inode.isDirectory = true
  · simp only [hdirectory, if_true, Action.perform_observe_bind, Action.perform_pure]
    have hwritable : (writes && h.mayWrite (pathOf file)) = false := by
      cases writes with
      | false => rfl
      | true => exact (hkept rfl).2 h hsame.grown.lasting_eq
    rw [hwritable, Bool.false_and]
    exact .ok ⟨rfl, rfl⟩ hsame
  · have hreading : writes = false := by
      cases writes with
      | false => rfl
      | true => exact absurd (hkept rfl).1 hdirectory
    subst hreading
    simp only [hdirectory, if_false, Bool.false_eq_true, Action.perform_ofExcept]
    cases himage : ofFile inspect file false with
    | ok i => exact .ok ⟨rfl, ofFile_writable himage⟩ hsame
    | error e => exact .error hsame

/-- An image on a read-only file system is loaded alike for writing and for reading: it
may be read. -/
theorem alike_load (hstands : base.StandsSomewhere) (hreadOnly : base.LeadsReadOnly p) :
    Action.Alike base (fun i j => i = j ∧ i.writable = false) (load policy inspect p true)
      (load policy inspect p false) := by
  refine Action.alike_bind (alike_openFallback hstands hreadOnly) fun x y huse => ?_
  refine Action.alike_bind (alike_ofOpenFile huse) fun i j hsame => ?_
  obtain ⟨rfl, hreading⟩ := hsame
  refine Action.alike_bind (Action.heedless_observe fun _ _ => rfl) fun users _ husers => ?_
  subst husers
  exact Action.alike_bind (Action.heedless_ofExcept _) fun _ _ _ =>
    Action.alike_pure ⟨rfl, hreading⟩

end Image

namespace OverlayRequest

variable {base : Host}

/-- A request to write an overlay that lies on a read-only file system is as good as the
request to read it. -/
theorem asGood_reading (policy : Policy) (inspect : SifReader) (hstands : base.StandsSomewhere)
    {o : OverlayRequest} (hreadOnly : base.LeadsReadOnly o.path) :
    AsGood base policy inspect o { o with writable := false } := by
  obtain ⟨p, writable⟩ := o
  cases writable with
  | false => exact .refl policy inspect _
  | true =>
      refine Action.alike_imp (fun i j hsame => ?_) (Image.alike_load hstands hreadOnly)
      obtain ⟨rfl, hreading⟩ := hsame
      exact ⟨rfl, by rw [hreading]; rfl⟩

end OverlayRequest
end ContainerLaunch
