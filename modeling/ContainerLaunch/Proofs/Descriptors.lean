import Mathlib.Algebra.Group.Nat.Defs
import Mathlib.Data.List.Nodup
import Mathlib.Data.List.Perm.Subperm
import ContainerLaunch.Proofs.Actions
/-!
# The table of descriptors

A descriptor that is opened gets a number that no open one has.  What a run of actions has
opened is therefore known by its numbers: they differ from each other and from those
that were there before, and as many are taken as descriptors were opened.
-/

namespace ContainerLaunch

/-- The entry of the table for an open file. -/
def OpenFile.tableEntry (f : OpenFile) : Descriptor := ⟨f.number, .file f.place, true⟩

namespace Host

variable {h h₁ h₂ : Host} {ds es : List Descriptor} {d : Descriptor}

def numbers (h : Host) : List Nat := h.descriptors.map Descriptor.number

theorem descriptor?_eq_none {n : Nat} : h.descriptor? n = none ↔ n ∉ h.numbers := by
  simp [descriptor?, numbers, List.find?_eq_none]

/-! ## Numbers of new descriptors -/

theorem freshNumber_spec (h : Host) :
    h.freshNumber ∉ h.numbers ∧ h.freshNumber < 3 + h.descriptors.length + 1 := by
  have hfound : ∃ n, (List.range' 3 (h.descriptors.length + 1)).find?
      (fun n => (h.descriptor? n).isNone) = some n := by
    rw [← Option.isSome_iff_exists, List.find?_isSome]
    -- Were all of these numbers taken, there would be more of them than descriptors.
    by_contra hnone
    have htaken : List.range' 3 (h.descriptors.length + 1) ⊆ h.numbers := by
      intro n hn
      by_contra hfree
      exact hnone ⟨n, hn, by simpa using descriptor?_eq_none.mpr hfree⟩
    have hlength := (List.Nodup.subperm (List.nodup_range' 1) htaken).length_le
    rw [List.length_range', numbers, List.length_map] at hlength
    omega
  obtain ⟨n, hn⟩ := hfound
  have hfresh : h.freshNumber = n := by
    rw [freshNumber, hn, Option.getD_some]
  have hfree := List.find?_some hn
  have hrange := List.mem_range'_1.mp (List.mem_of_find?_eq_some hn)
  rw [hfresh]
  exact ⟨descriptor?_eq_none.mp (by simpa using hfree), by omega⟩

/-! ## What was opened -/

/-- Between two hosts exactly these descriptors were opened and stayed open. -/
structure Opened (h : Host) (ds : List Descriptor) (h' : Host) : Prop where
  descriptors_perm : h'.descriptors.Perm (h.descriptors ++ ds)
  numbers_nodup : (ds.map Descriptor.number).Nodup
  numbers_free : ∀ d ∈ ds, d.number ∉ h.numbers
  numbers_lt : ∀ d ∈ ds, d.number < 3 + h.descriptors.length + ds.length

namespace Opened

theorem of_same (hsame : h₁.descriptors = h.descriptors) : h.Opened [] h₁ where
  descriptors_perm := by rw [hsame, List.append_nil]
  numbers_nodup := List.nodup_nil
  numbers_free := fun _ hd => absurd hd List.not_mem_nil
  numbers_lt := fun _ hd => absurd hd List.not_mem_nil

theorem addDescriptor (h : Host) (target : Target) :
    h.Opened [⟨h.freshNumber, target, true⟩] (h.addDescriptor target) where
  descriptors_perm := List.Perm.refl _
  numbers_nodup := List.nodup_singleton _
  numbers_free := by
    intro d hd
    rw [List.mem_singleton] at hd
    subst hd
    exact (freshNumber_spec h).1
  numbers_lt := by
    intro d hd
    rw [List.mem_singleton] at hd
    subst hd
    exact (freshNumber_spec h).2

theorem mem_numbers (hopened : h.Opened ds h₁) {n : Nat} :
    n ∈ h₁.numbers ↔ n ∈ h.numbers ∨ n ∈ ds.map Descriptor.number := by
  have hperm := hopened.descriptors_perm.map Descriptor.number
  rw [List.map_append] at hperm
  exact hperm.mem_iff.trans List.mem_append

/-- What is opened later gets numbers that what was opened before does not have. -/
theorem trans (hfirst : h.Opened ds h₁) (hsecond : h₁.Opened es h₂) : h.Opened (ds ++ es) h₂ where
  descriptors_perm := by
    have hperm := hsecond.descriptors_perm.trans (hfirst.descriptors_perm.append_right es)
    rwa [List.append_assoc] at hperm
  numbers_nodup := by
    rw [List.map_append]
    apply hfirst.numbers_nodup.append hsecond.numbers_nodup
    intro n hn hlater
    obtain ⟨e, he, rfl⟩ := List.mem_map.mp hlater
    exact hsecond.numbers_free e he (hfirst.mem_numbers.mpr (Or.inr hn))
  numbers_free := by
    intro d hd hn
    rcases List.mem_append.mp hd with hd | hd
    · exact hfirst.numbers_free d hd hn
    · exact hsecond.numbers_free d hd (hfirst.mem_numbers.mpr (Or.inl hn))
  numbers_lt := by
    have hlength := hfirst.descriptors_perm.length_eq
    rw [List.length_append] at hlength
    intro d hd
    rw [List.length_append]
    rcases List.mem_append.mp hd with hd | hd
    · have hlt := hfirst.numbers_lt d hd
      omega
    · have hlt := hsecond.numbers_lt d hd
      omega

theorem perm (hopened : h.Opened ds h₁) (hperm : ds.Perm es) : h.Opened es h₁ where
  descriptors_perm := hopened.descriptors_perm.trans (hperm.append_left _)
  numbers_nodup := (hperm.map _).nodup_iff.mp hopened.numbers_nodup
  numbers_free := fun d hd => hopened.numbers_free d (hperm.mem_iff.mpr hd)
  numbers_lt := by
    intro d hd
    rw [← hperm.length_eq]
    exact hopened.numbers_lt d (hperm.mem_iff.mpr hd)

/-- What the user is told in between opens nothing. -/
theorem of_tellAll {ns : List Notice} (hopened : (h.tellAll ns).Opened ds h₁) :
    h.Opened ds h₁ := by
  have htold : h.Opened [] (h.tellAll ns) := of_same rfl
  exact htold.trans hopened

/-- An open descriptor is found by its number. -/
theorem descriptor?_eq (hopened : h.Opened ds h₁) (hd : d ∈ ds) :
    h₁.descriptor? d.number = some d := by
  have hmem : d ∈ h₁.descriptors :=
    hopened.descriptors_perm.mem_iff.mpr (List.mem_append_right _ hd)
  cases hfind : h₁.descriptor? d.number with
  | none => exact absurd (List.mem_map_of_mem hmem) (descriptor?_eq_none.mp hfind)
  | some e =>
      have hnumber : e.number = d.number := by simpa using List.find?_some hfind
      have he := hopened.descriptors_perm.mem_iff.mp (List.mem_of_find?_eq_some hfind)
      rcases List.mem_append.mp he with hold | hnew
      · exact absurd (hnumber ▸ List.mem_map_of_mem hold) (hopened.numbers_free d hd)
      · exact congrArg some (List.inj_on_of_nodup_map hopened.numbers_nodup hnew hd hnumber)

end Opened
end Host

namespace Action

variable {h h' : Host}

theorem openFile_opened {access : Access} {p : Path} {file : OpenFile}
    (hrun : (openFile access p).perform h = (.ok file, h')) : h.Opened [file.tableEntry] h' := by
  obtain ⟨-, hnumber, rfl⟩ := perform_openFile_ok.mp hrun
  rw [OpenFile.tableEntry, hnumber]
  exact .addDescriptor h (.file file.place)

theorem socketPair_opened {ends : Nat × Nat} (hrun : socketPair.perform h = (.ok ends, h')) :
    h.Opened [⟨ends.1, .socket, true⟩, ⟨ends.2, .socket, true⟩] h' := by
  rw [perform_socketPair] at hrun
  cases hrun
  exact (Host.Opened.addDescriptor h .socket).trans (.addDescriptor _ .socket)

end Action
end ContainerLaunch
