import ContainerLaunch.Proofs.CanonicalPaths
/-!
# Steps up and down

Where a walk leads that meets no link is told by its steps alone: it goes up so many places
from where it starts, and down from there by names.  So it leads below its start exactly if
the names that it goes down begin with those that it has come up.  A walk over the path of
something in a directory leads to the directory first, and on from there.
-/

namespace ContainerLaunch

/-! ## Where steps lead -/

/-- The place to which a step leads, where there is no link. -/
def Step.next (here : Place) : Step → Place
  | .here => here
  | .up => here.dropLast
  | .enter name => here ++ [name]

/-- Where steps lead, as seen from where they start. -/
structure Detour where
  /-- How many places they lead up in the end. -/
  up : Nat
  /-- The names by which they lead down from there. -/
  down : List String
  deriving DecidableEq, Repr

namespace Detour

variable {base : Place} {d : Detour} {steps : List Step}

def next (d : Detour) : Step → Detour
  | .here => d
  | .up => if d.down = [] then ⟨d.up + 1, []⟩ else ⟨d.up, d.down.dropLast⟩
  | .enter name => ⟨d.up, d.down ++ [name]⟩

def ofSteps (steps : List Step) : Detour :=
  steps.foldl next ⟨0, []⟩

/-- The place to which a detour leads. -/
def target (d : Detour) (base : Place) : Place :=
  base.take (base.length - d.up) ++ d.down

/-- The names that a detour goes up from a place and does not come back by. -/
def left (d : Detour) (base : Place) : List String :=
  base.drop (base.length - d.up)

theorem target_next (d : Detour) (base : Place) (step : Step) :
    (d.next step).target base = step.next (d.target base) := by
  cases step with
  | here => rfl
  | enter name => simp only [next, target, Step.next, List.append_assoc]
  | up =>
      by_cases hdown : d.down = []
      · simp only [next, target, Step.next, hdown, if_true, List.append_nil,
          List.dropLast_eq_take, List.length_take, List.take_take]
        congr 1
        omega
      · simp only [next, target, Step.next, hdown, if_false,
          List.dropLast_append_of_ne_nil hdown]

theorem target_start (base : Place) : (⟨0, []⟩ : Detour).target base = base := by
  rw [target, Nat.sub_zero, List.take_length, List.append_nil]

theorem foldl_next (steps : List Step) (d : Detour) (base : Place) :
    steps.foldl Step.next (d.target base) = (steps.foldl next d).target base := by
  induction steps generalizing d with
  | nil => rfl
  | cons step rest ih => rw [List.foldl_cons, List.foldl_cons, ← target_next, ih]

/-- Steps lead to the target of their detour. -/
theorem target_ofSteps (steps : List Step) (base : Place) :
    (ofSteps steps).target base = steps.foldl Step.next base := by
  rw [ofSteps, ← foldl_next, target_start]

example : (ofSteps [.enter "a", .up, .up, .enter "b"]).target ["x", "y"] = ["x", "b"] := rfl

/-- A detour leads below a place exactly if it comes down again by the names it went up. -/
theorem isUnder_target_iff : base <+: d.target base ↔ d.left base <+: d.down := by
  have hsplit : base = base.take (base.length - d.up) ++ d.left base :=
    (List.take_append_drop _ _).symm
  rw [target]
  nth_rewrite 1 [hsplit]
  rw [List.prefix_append_right_inj]

theorem up_foldl_next (hsteps : .up ∉ steps) : (steps.foldl next d).up = d.up := by
  induction steps generalizing d with
  | nil => rfl
  | cons step rest ih =>
      rw [List.foldl_cons, ih (List.not_mem_of_not_mem_cons hsteps)]
      cases step with
      | here | enter name => rfl
      | up => exact absurd List.mem_cons_self hsteps

/-- Steps that do not go up do not leave the place where they start. -/
theorem left_ofSteps (hsteps : .up ∉ steps) : (ofSteps steps).left base = [] := by
  have hup : (ofSteps steps).up = 0 := up_foldl_next hsteps
  rw [left, hup, Nat.sub_zero, List.drop_length]

end Detour

namespace Walk

variable {look : Lookup} {follow : Bool} {here place : Place} {steps first second : List Step}
  {onLink onLink' : Place → List Step → Except Errno Place}

/-! ## Walks without links -/

/-- Whether there is a link at a place. -/
def isLinkAt (look : Lookup) (p : Place) : Bool :=
  match (look p).map Inode.node with
  | some (.link _) => true
  | _ => false

/-- There is no link among the names that steps enter. -/
def Unlinked (look : Lookup) : Place → List Step → Prop
  | _, [] => True
  | here, .enter name :: rest =>
      isLinkAt look (here ++ [name]) = false ∧ Unlinked look (here ++ [name]) rest
  | here, step :: rest => Unlinked look (step.next here) rest

instance decidableUnlinked (look : Lookup) :
    (here : Place) → (steps : List Step) → Decidable (Unlinked look here steps)
  | _, [] => isTrue trivial
  | here, .enter name :: rest =>
      have := decidableUnlinked look (here ++ [name]) rest
      inferInstanceAs (Decidable (_ ∧ _))
  | here, .here :: rest => decidableUnlinked look here rest
  | here, .up :: rest => decidableUnlinked look here.dropLast rest

theorem isLinkAt_of_link {p : Place} {target : Path}
    (hlink : (look p).map Inode.node = some (.link target)) : isLinkAt look p = true := by
  rw [isLinkAt, hlink]

theorem along_of_unlinked (hunlinked : Unlinked look here steps)
    (hwalk : along look onLink follow here steps = .ok place) :
    place = steps.foldl Step.next here := by
  fun_induction along look onLink follow here steps with
  | case1 here => exact (Except.ok.inj hwalk).symm
  | case2 here rest ih | case3 here rest ih => exact ih hunlinked hwalk
  | case12 here name rest hdir hlong there hnode ih => exact ih hunlinked.2 hwalk
  | case6 here name rest hdir hlong there hnode hlast
  | case13 here name rest hdir hlong there node hlink hsealed hdirectory hnode hlast =>
      obtain rfl := List.isEmpty_iff.mp hlast
      exact (Except.ok.inj hwalk).symm
  | case10 here name rest hdir hlong there hnode hlast =>
      rw [Bool.and_eq_true, List.isEmpty_iff] at hlast
      obtain ⟨rfl, -⟩ := hlast
      exact (Except.ok.inj hwalk).symm
  | case8 here name rest hdir hlong there target hnode
  | case9 here name rest hdir hlong there target hnode =>
      exact absurd (isLinkAt_of_link hnode) (Bool.eq_false_iff.mp hunlinked.1)
  | case4 | case5 | case7 | case11 | case14 => cases hwalk

/-- A walk that meets no link comes to where its steps lead. -/
theorem go_of_unlinked {links : Nat} (hunlinked : Unlinked look here steps)
    (hwalk : go look follow links here steps = .ok place) :
    place = steps.foldl Step.next here := by
  cases links with
  | zero => exact along_of_unlinked hunlinked hwalk
  | succ links => exact along_of_unlinked hunlinked hwalk

/-! ## Walks on from a place -/

/-- A walk over steps and more of them passes the place to which the first ones lead. -/
theorem exists_along_append {P : Place → Prop} (hsecond : second ≠ [])
    (hstop : ∀ here, along look onLink follow here second = .ok place → P here)
    (honLink : ∀ here steps, onLink here (steps ++ second) = .ok place →
      ∃ middle, (∀ n, onLink' here (steps ++ List.replicate n .here) = .ok middle) ∧ P middle)
    (hwalk : along look onLink follow here (first ++ second) = .ok place) :
    ∃ middle, (∀ n, along look onLink' true here (first ++ List.replicate n .here) = .ok middle) ∧
      P middle := by
  induction first generalizing here with
  | nil => exact ⟨here, along_replicate_here here, hstop here hwalk⟩
  | cons step rest ih =>
      cases step with
      | here | up => exact ih hwalk
      | enter name =>
          -- more steps follow, so the walk cannot have stopped at this name
          have hmore : (rest ++ second).isEmpty = false := by simp [hsecond]
          simp only [List.cons_append, along, hmore, Bool.false_and, Bool.false_eq_true,
            if_false] at hwalk ⊢
          split at hwalk
          · cases hwalk
          · next hdir =>
            split at hwalk
            · cases hwalk
            · next hlong =>
              simp only [hdir, hlong, if_false, Bool.not_true, Bool.and_false,
                Bool.false_eq_true]
              cases hnode : (look (here ++ [name])).map Inode.node with
              | none => simp only [hnode, reduceCtorEq] at hwalk
              | some node =>
                  cases node with
                  | link target =>
                      simp only [hnode, ← List.append_assoc] at hwalk ⊢
                      exact honLink _ _ hwalk
                  | directory =>
                      simp only [hnode] at hwalk ⊢
                      exact ih hwalk
                  | sealedLink | file content | program behaviour =>
                      simp only [hnode, reduceCtorEq] at hwalk

theorem exists_go_append {links : Nat} (hsecond : second ≠ [])
    (hwalk : go look follow links here (first ++ second) = .ok place) :
    ∃ middle, (∀ n, go look true links here (first ++ List.replicate n .here) = .ok middle) ∧
      ∃ links', go look follow links' middle second = .ok place := by
  induction links generalizing here first with
  | zero => exact exists_along_append hsecond (fun here hstop => ⟨0, hstop⟩) nofun hwalk
  | succ links ih =>
      exact exists_along_append hsecond (fun here hstop => ⟨links + 1, hstop⟩)
        (fun _ _ hlink => ih hlink) hwalk

end Walk

/-! ## Joined paths -/

namespace Step

/-- The steps of a path, without the one that slashes at its end ask for. -/
def ofPieces (p : Path) : List Step :=
  (Text.pieces '/' p.text).filterMap ofPiece

theorem exists_ofPath (p : Path) : ∃ n, ofPath p = ofPieces p ++ List.replicate n .here := by
  obtain ⟨n, hn⟩ := Host.ofPath_eq p
  exact ⟨n, by rw [hn, Host.ofPath_withoutEndSlashes, ofPieces]⟩

theorem ofPath_eq_ofPieces {p : Path} (hslash : p.text.toList.getLast? ≠ some '/') :
    ofPath p = ofPieces p := by
  unfold ofPath
  rw [if_neg (by simpa using hslash), ofPieces]

end Step

namespace Path

variable {base rel p : Path}

/-- A relative path is joined with a slash, where one is missing. -/
theorem exists_text_join (hrel : rel.isAbsolute = false) (hbase : base.text ≠ "") :
    ∃ cs, (base.join rel).text.toList = cs ++ '/' :: rel.text.toList ∧
      (base.text.toList = cs ∨ base.text.toList = cs ++ ['/']) := by
  rw [join, if_neg (by simp [hrel])]
  cases hlast : base.text.toList.getLast? with
  | none => exact absurd (String.toList_inj.mp (List.getLast?_eq_none_iff.mp hlast)) hbase
  | some c =>
      obtain ⟨cs, hcs⟩ := List.getLast?_eq_some_iff.mp hlast
      by_cases hslash : c = '/'
      · subst hslash
        exact ⟨cs, by simp [hcs], .inr hcs⟩
      · exact ⟨base.text.toList, by simp, .inl rfl⟩

/-- The empty path adds nothing to what is joined to it. -/
theorem join_of_empty (hbase : base.text = "") : base.join rel = rel := by
  rw [join, hbase]
  split
  · rfl
  · rfl

theorem isPrefix_join (hrel : rel.isAbsolute = false) :
    base.text.toList <+: (base.join rel).text.toList := by
  by_cases hbase : base.text = ""
  · rw [hbase]
    exact List.nil_prefix
  · obtain ⟨cs, hjoin, htext | htext⟩ := exists_text_join hrel hbase
    · exact ⟨_, htext ▸ hjoin.symm⟩
    · exact ⟨rel.text.toList, by rw [hjoin, htext, List.append_assoc, List.singleton_append]⟩

theorem isAbsolute_join (hrel : rel.isAbsolute = false) (hbase : base.isAbsolute = false) :
    (base.join rel).isAbsolute = false := by
  by_cases hempty : base.text = ""
  · rw [join_of_empty hempty, hrel]
  · have htext : base.text.toList ≠ [] := fun hnil => hempty (String.toList_inj.mp hnil)
    rw [← Walk.isAbsolute_of_isPrefix (isPrefix_join hrel) htext, hbase]

theorem ofPieces_join (hrel : rel.isAbsolute = false) :
    Step.ofPieces (base.join rel) = Step.ofPieces base ++ Step.ofPieces rel := by
  by_cases hbase : base.text = ""
  · rw [join_of_empty hbase, Step.ofPieces, Step.ofPieces, hbase]
    rfl
  · obtain ⟨cs, hjoin, htext⟩ := exists_text_join hrel hbase
    have hpieces : Step.ofPieces base =
        ((Text.piecesOf '/' cs).map String.ofList).filterMap Step.ofPiece := by
      rw [Step.ofPieces, Text.pieces]
      rcases htext with htext | htext
      · rw [htext]
      · -- the piece behind the slash at the end is empty
        rw [htext, Text.piecesOf_append_sep, List.map_append, List.filterMap_append]
        exact List.append_nil _
    rw [hpieces, Step.ofPieces, Step.ofPieces, Text.pieces, Text.pieces, hjoin,
      Text.piecesOf_append_sep, List.map_append, List.filterMap_append]

end Path

namespace Host

variable {h : Host} {base p : Path} {place : Place} {second : List Step}

/-- A place from which what is joined to a path is looked for: the one to which the path leads,
or the current directory if the path is empty. -/
def LooksFrom (h : Host) (p : Path) (place : Place) : Prop :=
  h.resolve true p = .ok place ∨ p.text = "" ∧ h.process.directory = some place

/-- A path that goes on from another one leads there first. -/
theorem exists_walk_of_isPrefix (hbegins : base.text.toList <+: p.text.toList)
    (hsteps : Step.ofPath p = Step.ofPieces base ++ second) (hsecond : second ≠ [])
    (habsolute : base.text = "" → p.isAbsolute = false) (hplace : h.resolve true p = .ok place) :
    ∃ middle links, h.LooksFrom base middle ∧
      Walk.go h.look true links middle second = .ok place := by
  obtain ⟨hfine, hwalk⟩ := Walk.refusal_of_resolve_ok hplace
  unfold Walk.ofSteps at hwalk
  cases hstart : Walk.start h.process.directory p with
  | error errno =>
      rw [hstart] at hwalk
      cases hwalk
  | ok here =>
      rw [hstart, hsteps] at hwalk
      by_cases hbase : base.text = ""
      · have hhere : h.process.directory = some here := by
          unfold Walk.start at hstart
          rw [habsolute hbase, if_neg Bool.false_ne_true] at hstart
          split at hstart
          · next directory hdirectory =>
            cases hstart
            exact hdirectory
          · cases hstart
        have hnone : Step.ofPieces base = [] := by
          rw [Step.ofPieces, hbase]
          rfl
        rw [hnone] at hwalk
        exact ⟨here, Walk.maxLinks, .inr ⟨hbase, hhere⟩, hwalk⟩
      · have htext : base.text.toList ≠ [] := fun hnil =>
          hbase (String.toList_inj.mp hnil)
        obtain ⟨middle, hmiddle, links, hrest⟩ := Walk.exists_go_append hsecond hwalk
        refine ⟨middle, links, .inl ?_, hrest⟩
        obtain ⟨n, hn⟩ := Step.exists_ofPath base
        rw [resolve, Walk.resolve_eq, Walk.refusal_of_isPrefix hbegins htext hfine, Walk.ofSteps,
          Walk.start_of_isPrefix _ hbegins htext, hstart, hn]
        simp only [hmiddle, Except.mapError]

end Host

end ContainerLaunch
