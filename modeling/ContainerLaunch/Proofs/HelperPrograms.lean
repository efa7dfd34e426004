import ContainerLaunch.Proofs.TrustedInputs
/-!
# Which programs write the maps

A launcher that is not privileged has two programs write the maps of a fake superuser.  Each
is the first file of its name along the search path that can be executed, and that file must
be the superuser's: a later one of the superuser's does not count.
-/

namespace ContainerLaunch.Helper

variable {h : Host} {name : String} {searchPath : Option String} {p : Path} {isSuid : Bool}
  {mode : MapWriter}

/-- A path that leads to a file that can be executed. -/
def IsProgram (h : Host) (p : Path) : Prop :=
  ∃ inode, h.stat p = .ok inode ∧ inode.isFile = true ∧ inode.executable = true

/-- The first program of a name in the directories of a search path. -/
def FirstProgram (h : Host) (name : String) (searchPath : Option String) (p : Path) : Prop :=
  ∃ before directory after, directories searchPath = before ++ directory :: after ∧
    Path.join ⟨directory⟩ ⟨name⟩ = p ∧ IsProgram h p ∧
    ∀ other ∈ before, ¬ IsProgram h (Path.join ⟨other⟩ ⟨name⟩)

/-- A helper that may write maps. -/
structure Suitable (h : Host) (name : String) (searchPath : Option String) (p : Path) : Prop where
  first : FirstProgram h name searchPath p
  root_owned : h.RootOwns p

theorem isExecutable_iff : isExecutable h p = true ↔ IsProgram h p := by
  unfold isExecutable IsProgram
  cases h.stat p with
  | ok inode => simp
  | error cause => simp

theorem onSearchPath_eq_some_iff :
    onSearchPath h name searchPath = some p ↔ FirstProgram h name searchPath p := by
  simp only [onSearchPath, List.find?_map, Option.map_eq_some_iff, List.find?_eq_some_iff_append,
    Function.comp_apply, Bool.not_eq_true', ← Bool.not_eq_true, isExecutable_iff]
  constructor
  · rintro ⟨directory, ⟨hprogram, before, after, hpath, hbefore⟩, rfl⟩
    exact ⟨before, directory, after, hpath, rfl, hprogram, hbefore⟩
  · rintro ⟨before, directory, after, hpath, rfl, hprogram, hbefore⟩
    exact ⟨directory, ⟨hprogram, before, after, hpath, hbefore⟩, rfl⟩

/-- A helper that is suitable is found if its path is short enough. -/
theorem find_of_suitable (hsuitable : Suitable h name searchPath p) :
    find h name searchPath =
      if maxPath - 1 ≤ p.size then .error (.capacityExceeded s!"{name} path" (maxPath - 1))
      else .ok p := by
  obtain ⟨inode, hstat, howner⟩ := hsuitable.root_owned
  have hkept : (inode.uid != 0) = false := by simp [howner]
  simp only [find, onSearchPath_eq_some_iff.mpr hsuitable.first, hstat, hkept,
    Bool.false_eq_true, if_false]

/-- A search without a suitable helper says that there is none, or that one cannot be looked
at. -/
theorem exists_suitable {x : Except Error Path} (hfind : find h name searchPath = x)
    (hfound : ∀ reason, x ≠ .error (.unavailable name reason))
    (hseen : ∀ p cause, x ≠ .error (.atPath p cause)) : ∃ p, Suitable h name searchPath p := by
  unfold find at hfind
  split at hfind
  · exact absurd hfind.symm (hfound _)
  · next p hprogram =>
    split at hfind
    · exact absurd hfind.symm (hseen _ _)
    · next inode hstat =>
      by_cases howner : inode.uid = 0
      · exact ⟨p, onSearchPath_eq_some_iff.mp hprogram, inode, hstat, howner⟩
      · rw [if_pos (by simpa using howner)] at hfind
        exact absurd hfind.symm (hfound _)

theorem suitable_of_find (hfind : find h name searchPath = .ok p) :
    Suitable h name searchPath p := by
  obtain ⟨helper, hsuitable⟩ := exists_suitable hfind (by simp) (by simp)
  rw [find_of_suitable hsuitable] at hfind
  split at hfind
  · cases hfind
  · cases hfind
    exact hsuitable

theorem find_capacityExceeded {field : String} {limit : Nat}
    (hfind : find h name searchPath = .error (.capacityExceeded field limit)) :
    ∃ helper, Suitable h name searchPath helper ∧ maxPath - 1 ≤ helper.size ∧
      field = s!"{name} path" ∧ limit = maxPath - 1 := by
  obtain ⟨helper, hsuitable⟩ := exists_suitable hfind (by simp) (by simp)
  rw [find_of_suitable hsuitable] at hfind
  split at hfind
  · next hlong =>
    cases hfind
    exact ⟨helper, hsuitable, hlong, rfl, rfl⟩
  · cases hfind

/-- A privileged launcher needs no helpers, and any other one needs both. -/
theorem mapWriter_ok :
    mapWriter h isSuid searchPath = .ok mode ↔
      if isSuid then mode = .setuid
      else ∃ newuidmap newgidmap, find h "newuidmap" searchPath = .ok newuidmap ∧
        find h "newgidmap" searchPath = .ok newgidmap ∧ mode = .helpers newuidmap newgidmap := by
  cases isSuid with
  | true => simp [mapWriter, eq_comm]
  | false =>
      simp only [mapWriter, Bool.false_eq_true, if_false, Error.bind_eq_ok]
      constructor
      · rintro ⟨newuidmap, huid, newgidmap, hgid, hmode⟩
        exact ⟨newuidmap, newgidmap, huid, hgid, (Except.ok.inj hmode).symm⟩
      · rintro ⟨newuidmap, newgidmap, huid, hgid, rfl⟩
        exact ⟨newuidmap, huid, newgidmap, hgid, rfl⟩

end ContainerLaunch.Helper
