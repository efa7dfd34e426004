import ContainerLaunch.Proofs.Removals
import Mathlib.Data.List.Basic
/-!
# Canonical paths

A walk only ever comes to places whose names are steps of their own, below one directory
after the other.  So the path of a place to which a walk has come leads back to it: there are
neither links nor dots on the way.  It does so for as long as the directories are still
there, whatever else comes to be seen.
-/

namespace ContainerLaunch

namespace Step

/-- A name that is a step of its own in the path of a place. -/
structure IsEntry (name : String) : Prop where
  noSlash : '/' ∉ name.toList
  enters : ofPiece name = some (.enter name)

theorem ofPiece_enter {piece name : String} (hstep : ofPiece piece = some (.enter name)) :
    piece = name := by
  unfold ofPiece at hstep
  split at hstep
  · cases hstep
  · split at hstep
    · cases hstep
    · split at hstep
      · cases hstep
      · exact Step.enter.inj (Option.some.inj hstep)

/-- A path asks for nothing but entries. -/
theorem isEntry_of_mem_ofPath {p : Path} {name : String} (hname : .enter name ∈ ofPath p) :
    IsEntry name := by
  obtain ⟨n, hn⟩ := Host.ofPath_eq p
  rw [hn, List.mem_append] at hname
  rcases hname with hname | hname
  · rw [Host.ofPath_withoutEndSlashes, List.mem_filterMap] at hname
    obtain ⟨piece, hpiece, hstep⟩ := hname
    obtain rfl := ofPiece_enter hstep
    obtain ⟨cs, hcs, rfl⟩ := List.mem_map.mp hpiece
    refine ⟨?_, hstep⟩
    rw [String.toList_ofList]
    exact Text.not_mem_of_mem_piecesOf hcs
  · cases List.eq_of_mem_replicate hname

/-- The path of a place enters the names of the place, one after the other. -/
theorem ofPath_path {place : Place} (hnames : ∀ name ∈ place, IsEntry name) :
    ∃ n, ofPath place.path = place.map .enter ++ List.replicate n .here := by
  obtain ⟨n, hn⟩ := Host.ofPath_eq place.path
  refine ⟨n, hn.trans (congrArg (· ++ _) ?_)⟩
  rw [Host.ofPath_withoutEndSlashes]
  have hpieces : Text.pieces '/' place.path.text = "" :: if place = [] then [""] else place := by
    have htext : place.path.text.toList = '/' :: ['/'].intercalate (place.map String.toList) := by
      rw [Place.path, String.toList_append, Text.join, String.toList_intercalate]
      rfl
    rw [Text.pieces, htext, Text.piecesOf, if_pos rfl, List.map_cons]
    by_cases hroot : place = []
    · subst hroot
      rfl
    · rw [if_neg hroot, Text.piecesOf_intercalate ?_ (by simpa using hroot), List.map_map]
      · have hsame : String.ofList ∘ String.toList = id := funext fun s => by simp
        rw [hsame, List.map_id]
      · intro part hpart
        obtain ⟨name, hname, rfl⟩ := List.mem_map.mp hpart
        exact (hnames name hname).noSlash
  rw [hpieces, List.filterMap_cons_none rfl]
  split
  · next hroot =>
      subst hroot
      rfl
  · exact List.filterMap_eq_map_iff_forall_eq_some.mpr fun name hname => (hnames name hname).enters

end Step

namespace Walk

variable {look look' : Lookup} {follow : Bool} {here place : Place} {steps : List Step}
  {onLink : Place → List Step → Except Errno Place}

/-- A place to which a walk may have come: it has entries as names, and there is a directory
at each place above it. -/
structure Reached (look : Lookup) (place : Place) : Prop where
  names : ∀ name ∈ place, Step.IsEntry name
  directories : ∀ above, above <+: place → above ≠ place → isDirectoryAt look above = true

theorem reached_root : Reached look [] where
  names := nofun
  directories := fun _ habove hne => absurd (List.prefix_nil.mp habove) hne

/-- Above a place to which a walk may come it may come as well. -/
theorem Reached.dropLast (hreached : Reached look place) : Reached look place.dropLast where
  names := fun name hname => hreached.names name (List.dropLast_subset _ hname)
  directories := by
    intro above habove hne
    refine hreached.directories above (habove.trans place.dropLast_prefix) ?_
    rintro rfl
    exact hne (habove.eq_of_length_le (by simp))

theorem Reached.entered {name : String} (hreached : Reached look here)
    (hdirectory : isDirectoryAt look here = true) (hname : Step.IsEntry name) :
    Reached look (here ++ [name]) where
  names := by
    intro other hother
    rcases List.mem_append.mp hother with hother | hother
    · exact hreached.names other hother
    · exact List.mem_singleton.mp hother ▸ hname
  directories := by
    intro above habove hne
    rcases List.prefix_concat_iff.mp habove with rfl | habove
    · exact absurd rfl hne
    · by_cases hsame : above = here
      · exact hsame ▸ hdirectory
      · exact hreached.directories above habove hsame

/-! ## What a walk comes to -/

/-- The names among the steps are entries. -/
def OfEntries (steps : List Step) : Prop :=
  ∀ name, .enter name ∈ steps → Step.IsEntry name

theorem ofEntries_ofPath (p : Path) : OfEntries (Step.ofPath p) :=
  fun _ hname => Step.isEntry_of_mem_ofPath hname

theorem reached_along
    (honLink : ∀ here steps place, Reached look here → OfEntries steps →
      onLink here steps = .ok place → Reached look place)
    (hreached : Reached look here) (hsteps : OfEntries steps)
    (hwalk : along look onLink follow here steps = .ok place) : Reached look place := by
  fun_induction along look onLink follow here steps with
  | case1 here => exact Except.ok.inj hwalk ▸ hreached
  | case2 here rest ih => exact ih hreached (fun name hname => hsteps name (.tail _ hname)) hwalk
  | case3 here rest ih =>
      exact ih hreached.dropLast (fun name hname => hsteps name (.tail _ hname)) hwalk
  | case6 here name rest hdir | case8 here name rest hdir | case10 here name rest hdir
  | case13 here name rest hdir =>
      rw [Bool.not_eq_true, Bool.not_eq_false'] at hdir
      exact Except.ok.inj hwalk ▸ hreached.entered hdir (hsteps name List.mem_cons_self)
  | case9 here name rest hdir hlong there target hnode hmore =>
      refine honLink _ _ _ ?_ ?_ hwalk
      · split
        · exact reached_root
        · exact hreached
      · intro other hother
        rcases List.mem_append.mp hother with hother | hother
        · exact ofEntries_ofPath target other hother
        · exact hsteps other (.tail _ hother)
  | case12 here name rest hdir hlong there hnode ih =>
      rw [Bool.not_eq_true, Bool.not_eq_false'] at hdir
      exact ih (hreached.entered hdir (hsteps name List.mem_cons_self))
        (fun other hother => hsteps other (.tail _ hother)) hwalk
  | case4 | case5 | case7 | case11 | case14 => cases hwalk

theorem reached_go {links : Nat} (hreached : Reached look here) (hsteps : OfEntries steps)
    (hwalk : go look follow links here steps = .ok place) : Reached look place := by
  induction links generalizing here steps place with
  | zero => exact reached_along (fun _ _ _ _ _ hlink => by cases hlink) hreached hsteps hwalk
  | succ links ih =>
      exact reached_along (fun _ _ _ hreached hsteps hlink => ih hreached hsteps hlink) hreached
        hsteps hwalk

/-- The end of a walk that has followed every link: below the root there is no link. -/
def Settled (look : Lookup) (place : Place) : Prop :=
  ∀ target, place ≠ [] → (look place).map Inode.node ≠ some (.link target)

theorem settled_root : Settled look [] :=
  fun _ hne => absurd rfl hne

theorem settled_of_isDirectoryAt (hdirectory : isDirectoryAt look place = true) :
    Settled look place := by
  obtain ⟨inode, hlook, hnode⟩ := isDirectoryAt_iff.mp hdirectory
  intro target _ hlink
  rw [hlook, Option.map_some, hnode] at hlink
  cases hlink

theorem Reached.settled_dropLast (hreached : Reached look place) :
    Settled look place.dropLast := by
  by_cases hroot : place = []
  · subst hroot
    exact settled_root
  · refine settled_of_isDirectoryAt (hreached.directories _ place.dropLast_prefix ?_)
    intro hsame
    have hlength := congrArg List.length hsame
    rw [List.length_dropLast] at hlength
    have hpos := List.length_pos_of_ne_nil hroot
    omega

theorem settled_along
    (honLink : ∀ here steps place, Reached look here → Settled look here → OfEntries steps →
      onLink here steps = .ok place → Settled look place)
    (hreached : Reached look here) (hsettled : Settled look here) (hsteps : OfEntries steps)
    (hwalk : along look onLink true here steps = .ok place) : Settled look place := by
  have hother : ∀ {there : Place} {found : Option Node}, (look there).map Inode.node = found →
      (∀ target, found ≠ some (.link target)) → .ok there = Except.ok (ε := Errno) place →
        Settled look place := by
    rintro there found hfound hnot hsame target - hlink
    obtain rfl := Except.ok.inj hsame
    exact hnot target (hfound.symm.trans hlink)
  fun_induction along look onLink true here steps with
  | case1 here => exact Except.ok.inj hwalk ▸ hsettled
  | case2 here rest ih =>
      exact ih hreached hsettled (fun name hname => hsteps name (.tail _ hname)) hwalk
  | case3 here rest ih =>
      exact ih hreached.dropLast hreached.settled_dropLast
        (fun name hname => hsteps name (.tail _ hname)) hwalk
  | case6 here name rest hdir hlong there hnode => exact hother hnode (by simp) hwalk
  | case9 here name rest hdir hlong there target hnode hmore =>
      rw [Bool.not_eq_true, Bool.not_eq_false'] at hdir
      refine honLink _ _ _ ?_ ?_ ?_ hwalk
      · split
        · exact reached_root
        · exact hreached
      · split
        · exact settled_root
        · exact hsettled
      · intro other hother
        rcases List.mem_append.mp hother with hother | hother
        · exact ofEntries_ofPath target other hother
        · exact hsteps other (.tail _ hother)
  | case12 here name rest hdir hlong there hnode ih =>
      rw [Bool.not_eq_true, Bool.not_eq_false'] at hdir
      refine ih (hreached.entered hdir (hsteps name List.mem_cons_self)) ?_
        (fun other hother => hsteps other (.tail _ hother)) hwalk
      rintro target - hlink
      rw [hnode] at hlink
      cases hlink
  | case10 here name rest hdir hlong there hnode => exact hother hnode (by simp) hwalk
  | case13 here name rest hdir hlong there node hlink hsealed hdirectory hnode =>
      exact hother hnode (fun target hsame => hlink target (Option.some.inj hsame)) hwalk
  | case8 here name rest hdir hlong there target hnode hlast =>
      -- a link at the end would have been followed
      rw [Bool.not_true, Bool.and_false] at hlast
      cases hlast
  | case4 | case5 | case7 | case11 | case14 => cases hwalk

theorem settled_go {links : Nat} (hreached : Reached look here) (hsettled : Settled look here)
    (hsteps : OfEntries steps) (hwalk : go look true links here steps = .ok place) :
    Settled look place := by
  induction links generalizing here steps place with
  | zero =>
      exact settled_along (fun _ _ _ _ _ _ (hlink : Except.error _ = _) => by cases hlink) hreached
        hsettled hsteps hwalk
  | succ links ih =>
      exact settled_along (fun _ _ _ hreached hsettled hsteps hlink =>
        ih hreached hsettled hsteps hlink) hreached hsettled hsteps hwalk

/-! ## The way back -/

/-- From above a place without a link a walk over the names that are missing comes to it, unless
one of them is too long. -/
theorem along_back {names : List String} {n : Nat} (hreached : Reached look (here ++ names))
    (hsettled : Settled look (here ++ names))
    (hwalk : along look onLink follow here (names.map .enter ++ List.replicate n .here) =
      .ok place) :
    place = here ++ names := by
  induction names generalizing here with
  | nil =>
      rw [List.map_nil, List.nil_append, along_replicate_here] at hwalk
      rw [List.append_nil]
      exact (Except.ok.inj hwalk).symm
  | cons name rest ih =>
      have hsplit : here ++ name :: rest = (here ++ [name]) ++ rest := by simp
      rw [hsplit] at hreached hsettled ⊢
      have hhere : isDirectoryAt look here = true :=
        hreached.directories here (by simp) fun hsame => by simpa using congrArg List.length hsame
      have honward : along look onLink follow (here ++ [name])
          (rest.map .enter ++ List.replicate n .here) = .ok place →
            place = (here ++ [name]) ++ rest := ih hreached hsettled
      rw [List.map_cons, List.cons_append] at hwalk
      simp only [along, hhere, Bool.not_true, Bool.false_eq_true, if_false] at hwalk
      split at hwalk
      · cases hwalk
      · by_cases hlast : rest = []
        · -- at the end the walk stops, or there is a directory and nothing more to enter
          subst hlast
          rw [List.append_nil] at hsettled honward ⊢
          split at hwalk
          · split at hwalk
            · exact (Except.ok.inj hwalk).symm
            · cases hwalk
          · next target hlink => exact absurd hlink (hsettled target (by simp))
          · split at hwalk
            · exact (Except.ok.inj hwalk).symm
            · cases hwalk
          · exact honward hwalk
          · split at hwalk
            · exact (Except.ok.inj hwalk).symm
            · cases hwalk
        · have hthere : isDirectoryAt look (here ++ [name]) = true :=
            hreached.directories _ (List.prefix_append _ _) fun hsame =>
              hlast (List.append_right_eq_self.mp hsame.symm)
          obtain ⟨inode, hlook, hnode⟩ := isDirectoryAt_iff.mp hthere
          rw [hlook, Option.map_some, hnode] at hwalk
          exact honward hwalk

theorem go_back {names : List String} {n links : Nat} (hreached : Reached look (here ++ names))
    (hsettled : Settled look (here ++ names))
    (hwalk : go look follow links here (names.map .enter ++ List.replicate n .here) = .ok place) :
    place = here ++ names := by
  cases links with
  | zero => exact along_back hreached hsettled hwalk
  | succ links => exact along_back hreached hsettled hwalk

end Walk

namespace Host

variable {h h' : Host} {p : Path} {place found : Place} {inode : Inode} {follow : Bool}

/-- The current directory of the process, if it is not gone, is a place to which a walk may
have come. -/
def StandsSomewhere (h : Host) : Prop :=
  ∀ directory, h.process.directory = some directory → Walk.Reached h.look directory

/-- The current directory of the process, if it is not gone, is a directory in others. -/
structure StandsInDirectory (h : Host) : Prop where
  somewhere : h.StandsSomewhere
  directory : ∀ directory, h.process.directory = some directory →
    Walk.isDirectoryAt h.look directory = true

/-- Where a path leads, its steps lead from the root or from the current directory. -/
theorem walk_of_resolve (hplace : h.resolve follow p = .ok place) :
    ∃ here, (here = [] ∨ h.process.directory = some here) ∧
      Walk.go h.look follow Walk.maxLinks here (Step.ofPath p) = .ok place := by
  obtain ⟨-, hsteps⟩ := Walk.refusal_of_resolve_ok hplace
  unfold Walk.ofSteps at hsteps
  cases hstart : Walk.start h.process.directory p with
  | error errno =>
      rw [hstart] at hsteps
      cases hsteps
  | ok here =>
      rw [hstart] at hsteps
      refine ⟨here, ?_, hsteps⟩
      unfold Walk.start at hstart
      split at hstart
      · exact Or.inl (Except.ok.inj hstart).symm
      · split at hstart
        · next directory hdirectory => exact Or.inr (Except.ok.inj hstart ▸ hdirectory)
        · cases hstart

theorem reached_of_resolve (hstands : h.StandsSomewhere) (hplace : h.resolve follow p = .ok place) :
    Walk.Reached h.look place := by
  obtain ⟨here, hhere, hwalk⟩ := walk_of_resolve hplace
  refine Walk.reached_go ?_ (Walk.ofEntries_ofPath p) hwalk
  rcases hhere with rfl | hdirectory
  · exact Walk.reached_root
  · exact hstands _ hdirectory

/-- No path leads to a link if links are followed. -/
theorem settled_of_resolve (hstands : h.StandsInDirectory) (hplace : h.resolve true p = .ok place) :
    Walk.Settled h.look place := by
  obtain ⟨here, hhere, hwalk⟩ := walk_of_resolve hplace
  rcases hhere with rfl | hdirectory
  · exact Walk.settled_go Walk.reached_root Walk.settled_root (Walk.ofEntries_ofPath p) hwalk
  · exact Walk.settled_go (hstands.somewhere _ hdirectory)
      (Walk.settled_of_isDirectoryAt (hstands.directory _ hdirectory)) (Walk.ofEntries_ofPath p)
      hwalk

/-- The path of a place to which a walk may have come leads nowhere else, unless there is a
link. -/
theorem resolve_path (hreached : Walk.Reached h.look place) (hsettled : Walk.Settled h.look place)
    (hfound : h.resolve follow place.path = .ok found) : found = place := by
  obtain ⟨-, hsteps⟩ := Walk.refusal_of_resolve_ok hfound
  have habsolute : place.path.isAbsolute = true := by
    rw [Path.isAbsolute, Place.path, String.toList_append]
    rfl
  obtain ⟨n, hn⟩ := Step.ofPath_path hreached.names
  have hstart : Walk.start h.process.directory place.path = .ok [] := if_pos habsolute
  rw [Walk.ofSteps, hstart, hn] at hsteps
  have hback : found = [] ++ place := Walk.go_back hreached hsettled hsteps
  exact hback

/-! ## Other hosts with the same files -/

/-- The link of a descriptor is no directory. -/
theorem isDirectory_descriptorLink (h : Host) (name : String) :
    ((h.descriptorLink ["proc", "self", "fd", name]).map Inode.isDirectory).getD false = false := by
  simp only [descriptorLink]
  split
  · rfl
  · rfl

/-- Whether there is a directory at a place does not depend on the descriptors. -/
theorem isDirectoryAt_eq_of_tree (htree : h'.tree = h.tree) (q : Place) :
    Walk.isDirectoryAt h'.look q = Walk.isDirectoryAt h.look q := by
  unfold Walk.isDirectoryAt look
  rw [htree]
  cases h.tree.find? q with
  | some inode => rfl
  | none =>
      simp only [Option.none_or]
      by_cases hentry : ∃ name, q = ["proc", "self", "fd", name]
      · obtain ⟨name, rfl⟩ := hentry
        rw [isDirectory_descriptorLink, isDirectory_descriptorLink]
      · unfold descriptorLink
        split
        · exact absurd ⟨_, rfl⟩ hentry
        · rfl

theorem reached_of_tree (htree : h'.tree = h.tree) (hreached : Walk.Reached h.look place) :
    Walk.Reached h'.look place where
  names := hreached.names
  directories := fun above habove hne =>
    (isDirectoryAt_eq_of_tree htree above).trans (hreached.directories above habove hne)

theorem process_eq_of_lasting (hlast : h'.lasting = h.lasting) : h'.process = h.process := by
  simpa [lasting] using congrArg Host.process hlast

theorem StandsSomewhere.of_lasting (hlast : h'.lasting = h.lasting)
    (hstands : h.StandsSomewhere) : h'.StandsSomewhere := by
  intro directory hdirectory
  rw [process_eq_of_lasting hlast] at hdirectory
  exact reached_of_tree (tree_eq_of_lasting hlast) (hstands directory hdirectory)

theorem StandsInDirectory.of_lasting (hlast : h'.lasting = h.lasting)
    (hstands : h.StandsInDirectory) : h'.StandsInDirectory where
  somewhere := hstands.somewhere.of_lasting hlast
  directory := by
    intro directory hdirectory
    rw [process_eq_of_lasting hlast] at hdirectory
    rw [isDirectoryAt_eq_of_tree (tree_eq_of_lasting hlast)]
    exact hstands.directory directory hdirectory

end Host
end ContainerLaunch
