import ContainerLaunch.Proofs.ImageAuthority
import ContainerLaunch.Proofs.Launch.Writing
import ContainerLaunch.Proofs.Text
/-!
# The path of an image

The limit on where images lie is checked against the path that is recorded for an image.
It is read from the link of the open descriptor, and the mark that the kernel puts after the
path of a file that was removed is taken off.  A name may end in the same mark by itself,
and then the path is that of another place: next to the image, with the mark taken off its
name.
-/

namespace ContainerLaunch

namespace Path

variable {p base : Path} {ending : String}

/-- A text after a path that starts no new component changes no component but the last. -/
theorem exists_components_append (habsolute : p.isAbsolute = true)
    (hending : '/' ∉ ending.toList) :
    ∃ before last : List Component, p.components = before ++ last ∧ last.length ≤ 1 ∧
      before <+: (⟨p.text ++ ending⟩ : Path).components := by
  obtain ⟨before, last, hpieces, hlonger⟩ := Text.exists_piecesOf_append '/' p.text.toList
  refine ⟨.root :: (before.map String.ofList).filterMap componentOf,
    [String.ofList last].filterMap componentOf, ?_, ?_, ?_⟩
  · rw [components, if_pos habsolute, Text.pieces, hpieces, List.map_append, List.filterMap_append]
    rfl
  · exact List.length_filterMap_le _ _
  · have hlong : (⟨p.text ++ ending⟩ : Path).isAbsolute = true := by
      have hhead : p.text.toList.head? = some '/' := by simpa [isAbsolute] using habsolute
      rw [isAbsolute, String.toList_append, List.head?_append, hhead]
      rfl
    rw [components, if_pos hlong, Text.pieces, String.toList_append, hlonger hending,
      List.map_append, List.filterMap_append]
    exact List.prefix_append _ _

/-- Where a path lies within another one, but no longer does when something is put after its
name, the two are the same. -/
theorem same_of_not_within (habsolute : p.isAbsolute = true) (hending : '/' ∉ ending.toList)
    (hwithin : p.isWithin base = true) (hout : (⟨p.text ++ ending⟩ : Path).isWithin base = false) :
    p.same base = true := by
  obtain ⟨before, last, hcomponents, hlast, hlonger⟩ :=
    exists_components_append habsolute hending
  rw [isWithin_iff, hcomponents] at hwithin
  rw [same_iff, hcomponents]
  have hnot : ¬ base.components <+: before := by
    intro hbefore
    rw [(isWithin_iff _ _).mpr (hbefore.trans hlonger)] at hout
    cases hout
  match last, hlast with
  | [], _ =>
      rw [List.append_nil] at hwithin
      exact absurd hwithin hnot
  | [_], _ =>
      rcases List.prefix_concat_iff.mp hwithin with heq | hbefore
      · exact heq.symm
      · exact absurd hbefore hnot

end Path

namespace Image

variable {policy : Policy} {inspect : SifReader} {p : Path} {writable : Bool} {h h' : Host}
  {i : Image} {file : OpenFile}

/-- The name of a place ends in the mark that the kernel puts after the path of a file that
was removed. -/
def EndsInMark (place : Place) : Prop :=
  ∃ text, place.path.text = text ++ deletedSuffix

theorem endsInMark_iff {place : Place} :
    (Text.stripEnd deletedSuffix place.path.text).isSome = true ↔ EndsInMark place := by
  rw [Option.isSome_iff_exists]
  exact exists_congr fun _ => Text.stripEnd_eq_some_iff

instance (place : Place) : Decidable (EndsInMark place) :=
  decidable_of_iff _ endsInMark_iff

/-- The path that is recorded for an open file is that of its place, and only the mark at the
end of the name is missing from it. -/
theorem text_eq_pathOf_append (hmark : EndsInMark file.place) :
    file.place.path.text = (pathOf file).text ++ deletedSuffix := by
  obtain ⟨text, htext⟩ := hmark
  have hstrip : Text.stripEnd deletedSuffix file.place.path.text = some text :=
    Text.stripEnd_eq_some_iff.mpr htext
  rw [pathOf, hstrip]
  exact htext

theorem pathOf_eq_iff : pathOf file = file.place.path ↔ ¬ EndsInMark file.place := by
  constructor
  · intro hsame hmark
    have htext := text_eq_pathOf_append hmark
    rw [hsame] at htext
    have hlength := congrArg String.length htext
    rw [String.length_append, show deletedSuffix.length = 10 from rfl] at hlength
    omega
  · intro hnot
    have hstrip : Text.stripEnd deletedSuffix file.place.path.text = none := by
      rw [← endsInMark_iff] at hnot
      simpa using hnot
    rw [pathOf, hstrip]
    rfl

/-- The path of a place without the mark still starts at the root. -/
theorem isAbsolute_pathOf (hmark : EndsInMark file.place) : (pathOf file).isAbsolute = true := by
  have htext := congrArg String.toList (text_eq_pathOf_append hmark)
  rw [Place.path, String.toList_append, String.toList_append] at htext
  unfold Path.isAbsolute
  cases hcs : (pathOf file).text.toList with
  | nil =>
      rw [hcs] at htext
      exact absurd (List.cons.inj htext).1 (by decide)
  | cons c rest =>
      rw [hcs] at htext
      rw [← (List.cons.inj htext).1]
      rfl

/-- An image that is loaded is what its path leads to.  The path that is recorded for it is
the canonical one, unless the name ends in the mark of removed files.  So where the policy
limits the places of images, an image that lies outside of them is loaded only if it lies
next to one of them, with the same name and the mark after it. -/
theorem path_recorded (hload : (load policy inspect p writable).perform h = (.ok i, h')) :
    h.find p = .ok (i.file.place, i.file.inode) ∧
      (h.canonical p = .ok i.path ↔ ¬ EndsInMark i.file.place) ∧
      (policy.limitPaths ≠ [] →
        (∀ base ∈ policy.limitPaths, i.file.place.path.isWithin base = false) →
        ∃ base ∈ policy.limitPaths, i.path.same base = true ∧
          i.file.place.path.text = i.path.text ++ deletedSuffix) := by
  obtain ⟨opened, h₁, hopen, himage, hallowed⟩ := load_ok.mp hload
  have hof := (ofOpenFile_ok himage).1
  have hpath : i.path = pathOf i.file := by rw [hof.path_eq, hof.file_eq]
  have hfind := (load_writable_iff hload).1
  have hcanonical : h.canonical p = .ok i.file.place.path := by
    rw [Host.canonical, hfind]
    rfl
  refine ⟨hfind, ?_, fun hlimits hout => ?_⟩
  · rw [hcanonical, hpath, ← pathOf_eq_iff]
    exact ⟨fun hsame => (Except.ok.inj hsame).symm, fun hsame => congrArg _ hsame.symm⟩
  · obtain ⟨base, hbase, hwithin⟩ := (checkPolicy_ok_iff.mp hallowed).path hlimits
    have hin : i.path.isWithin base = true := (Path.isWithin_iff _ _).mpr hwithin
    -- a path that is recorded as it is lies where the limit says
    have hmark : EndsInMark i.file.place := by
      by_contra hnot
      rw [hpath, pathOf_eq_iff.mpr hnot, hout base hbase] at hin
      cases hin
    have htext := text_eq_pathOf_append hmark
    refine ⟨base, hbase, ?_, hpath ▸ htext⟩
    rw [hpath] at hin ⊢
    have houtside : (⟨(pathOf i.file).text ++ deletedSuffix⟩ : Path).isWithin base = false := by
      rw [← htext]
      exact hout base hbase
    exact Path.same_of_not_within (isAbsolute_pathOf hmark) (by decide) hin houtside

/-! ## An image behind links, and one with the mark in its name -/

/-- A host with a directory of images, a link to a link into it, and next to it a directory
with the mark in its name. -/
def markedHost : Host :=
  let plain := Host.plain ⟨1000, 1000, 1000, []⟩
    [["images"], ["images", "box"], ["images (deleted)"]] []
  { plain with
    tree := (plain.tree.put ["first"] ⟨.link ⟨"second"⟩, 0, 0, false⟩).put ["second"]
      ⟨.link ⟨"/images/./box"⟩, 0, 0, false⟩ }

/-- Images have to lie in the directory of images. -/
def imagesOnly : Policy :=
  { Policy.default with limitPaths := [⟨"/images"⟩] }

theorem path_recorded_behindLinks :
    ∃ i h', (load imagesOnly SifContents.inspect ⟨"/first"⟩ false).perform markedHost =
        (.ok i, h') ∧
      markedHost.canonical ⟨"/first"⟩ = .ok i.path ∧ i.path = ⟨"/images/box"⟩ := by
  obtain ⟨i, h', hload, hi⟩ := Action.exists_perform_ok (f := fun i => (i.path, i.file.place))
    (b := (⟨"/images/box"⟩, ["images", "box"]))
    (a := load imagesOnly SifContents.inspect ⟨"/first"⟩ false) (h := markedHost)
    (by decide +kernel)
  obtain ⟨hpath, hplace⟩ := Prod.mk.inj hi
  obtain ⟨-, hcanonical, -⟩ := path_recorded hload
  refine ⟨i, h', hload, hcanonical.mpr ?_, hpath⟩
  rw [hplace]
  decide +kernel

/-- An image outside of the directory of images is loaded, under the path of that
directory. -/
theorem image_outside_loaded :
    ∃ i h', (load imagesOnly SifContents.inspect ⟨"/images (deleted)"⟩ false).perform markedHost =
        (.ok i, h') ∧
      imagesOnly.limitPaths ≠ [] ∧ markedHost.canonical ⟨"/images (deleted)"⟩ ≠ .ok i.path ∧
      ∀ base ∈ imagesOnly.limitPaths, i.file.place.path.isWithin base = false := by
  obtain ⟨i, h', hload, hi⟩ := Action.exists_perform_ok (f := fun i => (i.path, i.file.place))
    (b := (⟨"/images"⟩, ["images (deleted)"]))
    (a := load imagesOnly SifContents.inspect ⟨"/images (deleted)"⟩ false) (h := markedHost)
    (by decide +kernel)
  obtain ⟨hpath, hplace⟩ := Prod.mk.inj hi
  refine ⟨i, h', hload, by decide, ?_, ?_⟩
  · rw [hpath]
    decide +kernel
  · rw [hplace]
    decide +kernel

end Image
end ContainerLaunch
