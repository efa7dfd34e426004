import ContainerLaunch.Host.State
/-!
# Walks that lead nowhere

What becomes of a walk when something is removed.  A place of which the walk made use may
show nothing any more, and then the walk ends at once, or it goes on as before.  So a path
on a host with fewer files leads where it led, or to nothing at all.

Whether the last link of a path is followed makes no difference to a path that leads to
nothing, and neither do slashes at its end.
-/

namespace ContainerLaunch

namespace Walk

variable {look look' : Lookup} {follow : Bool}
  {onLink onLink' : Place → List Step → Except Errno Place}

/-- Each place shows in one view what it shows in another, or nothing. -/
def Fewer (look' look : Lookup) : Prop :=
  ∀ p, look' p = look p ∨ look' p = none

/-- A walk has found nothing: it got stuck at a name that is not there, or has come to a
place where nothing is. -/
def Nowhere (look : Lookup) (r : Except Errno Place) : Prop :=
  r = .error .noEntry ∨ ∃ place, r = .ok place ∧ look place = none

@[simp] theorem nowhere_error {errno : Errno} :
    Nowhere look (.error errno) ↔ errno = .noEntry := by
  simp [Nowhere]

@[simp] theorem nowhere_ok {place : Place} : Nowhere look (.ok place) ↔ look place = none := by
  simp [Nowhere]

theorem isDirectoryAt_iff {p : Place} :
    isDirectoryAt look p = true ↔ ∃ inode, look p = some inode ∧ inode.node = .directory := by
  unfold isDirectoryAt
  cases look p with
  | none => simp
  | some inode =>
      cases hnode : inode.node <;> simp [Inode.isDirectory, hnode]

theorem Fewer.refl (look : Lookup) : Fewer look look :=
  fun _ => Or.inl rfl

theorem Fewer.trans {look'' : Lookup} (hsecond : Fewer look'' look') (hfirst : Fewer look' look) :
    Fewer look'' look := by
  intro p
  rcases hsecond p with hsame | hgone
  · rw [hsame]
    exact hfirst p
  · exact Or.inr hgone

theorem Fewer.isDirectoryAt {p : Place} (hfewer : Fewer look' look)
    (hdir : isDirectoryAt look' p = true) : isDirectoryAt look p = true := by
  rcases hfewer p with hsame | hgone
  · rw [Walk.isDirectoryAt, hsame] at hdir
    exact hdir
  · rw [Walk.isDirectoryAt, hgone] at hdir
    cases hdir

/-! ## Fewer things to see -/

/-- Where less is to be seen, a walk over steps ends as it did or finds nothing. -/
theorem along_of_fewer (hfewer : Fewer look' look)
    (honLink : ∀ here steps, onLink' here steps = onLink here steps ∨
      Nowhere look' (onLink' here steps))
    (here : Place) (steps : List Step) :
    along look' onLink' follow here steps = along look onLink follow here steps ∨
      Nowhere look' (along look' onLink' follow here steps) := by
  induction steps generalizing here with
  | nil => exact Or.inl rfl
  | cons step rest ih =>
      cases step with
      | here => exact ih here
      | up => exact ih here.dropLast
      | enter name =>
          by_cases hdir : Walk.isDirectoryAt look' here = true
          · simp only [along, hdir, hfewer.isDirectoryAt hdir, Bool.not_true, Bool.false_eq_true,
              if_false]
            by_cases hlong : maxName < name.utf8ByteSize
            · simp only [hlong, if_true, true_or]
            · simp only [hlong, if_false]
              -- either the entry is still there, or the walk has just lost its way
              rcases hfewer (here ++ [name]) with hsame | hgone
              · rw [hsame]
                cases (look (here ++ [name])).map Inode.node with
                | none => exact Or.inl rfl
                | some node =>
                    cases node with
                    | link target =>
                        by_cases hlast : (rest.isEmpty && !follow) = true
                        · simp only [hlast, if_true, true_or]
                        · simp only [hlast, if_false, Bool.false_eq_true]
                          exact honLink _ _
                    | directory => exact ih _
                    | sealedLink => exact Or.inl rfl
                    | file content => exact Or.inl rfl
                    | program behaviour => exact Or.inl rfl
              · refine Or.inr ?_
                rw [hgone]
                cases rest with
                | nil => exact Or.inr ⟨here ++ [name], rfl, hgone⟩
                | cons next more => exact Or.inl rfl
          · refine Or.inr (Or.inl ?_)
            simp only [along, hdir, Bool.not_false, if_true]

theorem go_of_fewer (hfewer : Fewer look' look) (links : Nat) (here : Place)
    (steps : List Step) :
    go look' follow links here steps = go look follow links here steps ∨
      Nowhere look' (go look' follow links here steps) := by
  induction links generalizing here steps with
  | zero => exact along_of_fewer hfewer (fun _ _ => Or.inl rfl) here steps
  | succ links ih => exact along_of_fewer hfewer ih here steps

/-! ## Longer walks -/

theorem along_replicate_here (here : Place) (n : Nat) :
    along look onLink follow here (List.replicate n .here) = .ok here := by
  induction n with
  | zero => rfl
  | succ n ih => exact ih

/-- A walk that finds nothing without following a link at its end does not find anything
by following it, or by looking further at the place where it has ended. -/
theorem nowhere_along {n : Nat}
    (honLink : ∀ here steps, Nowhere look (onLink here steps) →
      Nowhere look (onLink' here (steps ++ List.replicate n .here)))
    {here : Place} {steps : List Step}
    (hnowhere : Nowhere look (along look onLink false here steps)) :
    Nowhere look (along look onLink' follow here (steps ++ List.replicate n .here)) := by
  -- a walk that found something, or failed for another reason, is ruled out case by case
  have hthere : ∀ {there : Place} {node : Node},
      (look there).map Inode.node = some node → ¬ Nowhere look (.ok there) := by
    intro there node hnode hnone
    rw [nowhere_ok.mp hnone] at hnode
    cases hnode
  fun_induction along look onLink false here steps with
  | case1 here => rwa [List.nil_append, along_replicate_here]
  | case2 here rest ih | case3 here rest ih => exact ih hnowhere
  | case4 here name rest hdir => simp [along, hdir]
  | case6 here name rest hdir hlong there hnode hlast =>
      have hnone : look (here ++ [name]) = none := nowhere_ok.mp hnowhere
      simp only [List.cons_append, along, hdir, hlong, if_false, Bool.false_eq_true, hnone,
        Option.map_none]
      split
      · exact hnowhere
      · exact Or.inl rfl
  | case7 here name rest hdir hlong there hnode hmore =>
      have hmore : ¬ (rest ++ List.replicate n Step.here).isEmpty = true := by
        simp_all
      simp [along, hdir, hlong, there, hnode, hmore]
  | case9 here name rest hdir hlong there target hnode hmore =>
      have hmore : ¬ ((rest ++ List.replicate n Step.here).isEmpty && !follow) = true := by
        simp_all
      simp only [List.cons_append, along, hdir, hlong, if_false, there, hnode, hmore]
      rw [← List.append_assoc]
      exact honLink _ _ hnowhere
  | case12 here name rest hdir hlong there hnode ih =>
      simp only [List.cons_append, along, hdir, hlong, if_false, there, hnode]
      exact ih hnowhere
  | case8 here name rest hdir hlong there target hnode => exact absurd hnowhere (hthere hnode)
  | case10 here name rest hdir hlong there hnode => exact absurd hnowhere (hthere hnode)
  | case13 here name rest hdir hlong there node hlink hsealed hdirectory hnode =>
      exact absurd hnowhere (hthere hnode)
  | case5 | case11 | case14 => cases nowhere_error.mp hnowhere

/-- A walk that ends at a directory ends there as well if it looks further at the place. -/
theorem along_append_here {n : Nat} {place : Place}
    (honLink : ∀ here steps, onLink here steps = .ok place →
      onLink here (steps ++ List.replicate n .here) = .ok place)
    {here : Place} {steps : List Step}
    (hwalk : along look onLink false here steps = .ok place)
    (hdirectory : isDirectoryAt look place = true) :
    along look onLink false here (steps ++ List.replicate n .here) = .ok place := by
  obtain ⟨inode, hlook, hnode⟩ := isDirectoryAt_iff.mp hdirectory
  fun_induction along look onLink false here steps with
  | case1 here => rwa [List.nil_append, along_replicate_here]
  | case2 here rest ih | case3 here rest ih => exact ih hwalk
  | case9 here name rest hdir hlong there target htarget hmore =>
      have hmore : ¬ ((rest ++ List.replicate n Step.here).isEmpty && !false) = true := by
        simp_all
      simp only [List.cons_append, along, hdir, hlong, if_false, Bool.false_eq_true, there, htarget,
        hmore]
      rw [← List.append_assoc]
      exact honLink _ _ hwalk
  | case12 here name rest hdir hlong there hthere ih =>
      simp only [List.cons_append, along, hdir, hlong, if_false, Bool.false_eq_true, there, hthere]
      exact ih hwalk
  | case6 here name rest hdir hlong there hthere | case8 here name rest hdir hlong there _ hthere
  | case10 here name rest hdir hlong there hthere =>
      have hplace : there = place := Except.ok.inj hwalk
      rw [hplace, hlook, Option.map_some, hnode] at hthere
      cases hthere
  | case13 here name rest hdir hlong there node hlink hsealed hother hthere =>
      have hplace : there = place := Except.ok.inj hwalk
      rw [hplace, hlook, Option.map_some] at hthere
      exact absurd ((Option.some.inj hthere).symm.trans hnode) hother
  | case4 | case5 | case7 | case11 | case14 => cases hwalk

theorem nowhere_go {n links : Nat} {here : Place} {steps : List Step}
    (hnowhere : Nowhere look (go look false links here steps)) :
    Nowhere look (go look follow links here (steps ++ List.replicate n .here)) := by
  induction links generalizing here steps with
  | zero => exact nowhere_along (fun _ _ hlink => by cases nowhere_error.mp hlink) hnowhere
  | succ links ih => exact nowhere_along (fun _ _ hlink => ih hlink) hnowhere

theorem go_append_here {n links : Nat} {here place : Place} {steps : List Step}
    (hwalk : go look false links here steps = .ok place)
    (hdirectory : isDirectoryAt look place = true) :
    go look false links here (steps ++ List.replicate n .here) = .ok place := by
  induction links generalizing here steps with
  | zero => exact along_append_here (fun _ _ hlink => by cases hlink) hwalk hdirectory
  | succ links ih => exact along_append_here (fun _ _ hlink => ih hlink) hwalk hdirectory

/-! ## From steps to paths -/

/-- Why a path is refused before any step is taken, if it is. -/
def refusal (p : Path) : Option IoError :=
  if p.hasNul then some .nulInName
  else if p.text.isEmpty then some (.system .noEntry)
  else if 4096 ≤ p.size then some (.system .nameTooLong)
  else none

/-- Where the steps of a path lead from where it starts. -/
def ofSteps (look : Lookup) (cwd : Option Place) (follow : Bool) (p : Path) : Except Errno Place :=
  match start cwd p with
  | .error errno => .error errno
  | .ok here => go look follow maxLinks here (Step.ofPath p)

theorem resolve_eq (look : Lookup) (cwd : Option Place) (follow : Bool) (p : Path) :
    resolve look cwd follow p =
      match refusal p with
      | some cause => .error cause
      | none => (ofSteps look cwd follow p).mapError .system := by
  unfold resolve refusal
  by_cases hnul : p.hasNul = true
  · simp only [hnul, if_true]
  · by_cases hempty : p.text.isEmpty = true
    · simp only [hnul, hempty, if_true, if_false, Bool.false_eq_true]
    · by_cases hlong : 4096 ≤ p.size
      · simp only [hnul, hempty, hlong, if_true, if_false, Bool.false_eq_true]
      · simp only [hnul, hempty, hlong, if_false, Bool.false_eq_true]
        rw [ofSteps]
        generalize maxLinks = links
        cases start cwd p with
        | error errno => rfl
        | ok here =>
            simp only [Bind.bind, Except.bind]
            cases go look follow links here (Step.ofPath p) <;> rfl

theorem isAbsolute_of_isPrefix {p q : Path} (hbegins : q.text.toList <+: p.text.toList)
    (hq : q.text.toList ≠ []) : q.isAbsolute = p.isAbsolute := by
  obtain ⟨rest, hrest⟩ := hbegins
  rw [Path.isAbsolute, Path.isAbsolute, ← hrest]
  cases htext : q.text.toList with
  | nil => exact absurd htext hq
  | cons c more => rfl

/-- A path starts where any beginning of it starts. -/
theorem start_of_isPrefix {p q : Path} (cwd : Option Place)
    (hbegins : q.text.toList <+: p.text.toList) (hq : q.text.toList ≠ []) :
    start cwd q = start cwd p := by
  unfold start
  rw [isAbsolute_of_isPrefix hbegins hq]

/-- Where a path is not refused, no beginning of it is. -/
theorem refusal_of_isPrefix {p q : Path} (hbegins : q.text.toList <+: p.text.toList)
    (hq : q.text.toList ≠ []) (hfine : refusal p = none) : refusal q = none := by
  obtain ⟨rest, hrest⟩ := hbegins
  have htext : p.text = q.text ++ String.ofList rest := by
    apply String.toList_inj.mp
    rw [String.toList_append, String.toList_ofList, hrest]
  have hsize : q.size ≤ p.size := by
    rw [Path.size, Path.size, htext, String.utf8ByteSize_append]
    exact Nat.le_add_right _ _
  have hnul : p.hasNul = false → q.hasNul = false := by
    rw [Path.hasNul, Path.hasNul, ← hrest]
    simp +contextual
  have hnonempty : ¬ q.text.isEmpty = true := by
    intro hempty
    apply hq
    rw [String.isEmpty_iff.mp hempty]
    rfl
  unfold refusal at hfine ⊢
  split at hfine
  · cases hfine
  · next hclean =>
    rw [if_neg (by simpa using hnul (by simpa using hclean)), if_neg hnonempty]
    split at hfine
    · cases hfine
    · split at hfine
      · cases hfine
      · rw [if_neg (by omega)]

theorem refusal_of_resolve_ok {cwd : Option Place} {p : Path} {place : Place}
    (hplace : resolve look cwd follow p = .ok place) :
    refusal p = none ∧ ofSteps look cwd follow p = .ok place := by
  rw [resolve_eq] at hplace
  cases hfine : refusal p with
  | some cause =>
      rw [hfine] at hplace
      cases hplace
  | none =>
      rw [hfine] at hplace
      cases hsteps : ofSteps look cwd follow p with
      | error errno =>
          rw [hsteps] at hplace
          cases hplace
      | ok found =>
          rw [hsteps] at hplace
          exact ⟨rfl, congrArg _ (Except.ok.inj hplace)⟩

theorem ofSteps_of_fewer (hfewer : Fewer look' look) (cwd : Option Place) (p : Path) :
    ofSteps look' cwd follow p = ofSteps look cwd follow p ∨
      Nowhere look' (ofSteps look' cwd follow p) := by
  unfold ofSteps
  generalize maxLinks = links
  cases start cwd p with
  | error errno => exact Or.inl rfl
  | ok here => exact go_of_fewer hfewer links here (Step.ofPath p)

end Walk

namespace Host

variable {h h' : Host} {follow : Bool} {p : Path}

/-- A path leads to nothing: some name on the way is not there, or nothing is at its
end. -/
def LeadsNowhere (h : Host) (follow : Bool) (p : Path) : Prop :=
  h.resolve follow p = .error (.system .noEntry) ∨
    ∃ place, h.resolve follow p = .ok place ∧ h.look place = none

theorem leadsNowhere_iff (hfine : Walk.refusal p = none) :
    h.LeadsNowhere follow p ↔
      Walk.Nowhere h.look (Walk.ofSteps h.look h.process.directory follow p) := by
  unfold LeadsNowhere resolve
  rw [Walk.resolve_eq, hfine]
  cases Walk.ofSteps h.look h.process.directory follow p with
  | error errno =>
      have hfailed : (Except.error errno : Except Errno Place).mapError IoError.system =
          .error (.system errno) := rfl
      simp [hfailed]
  | ok place =>
      have hdone : (Except.ok place : Except Errno Place).mapError IoError.system = .ok place := rfl
      simp [hdone]

theorem resolve_of_refusal {cause : IoError} (hrefused : Walk.refusal p = some cause) :
    h.resolve follow p = .error cause := by
  rw [resolve, Walk.resolve_eq, hrefused]

/-- On a host where less is to be seen a path leads where it led, or nowhere. -/
theorem resolve_of_fewer (hdirectory : h'.process.directory = h.process.directory)
    (hfewer : Walk.Fewer h'.look h.look) (follow : Bool) (p : Path) :
    h'.resolve follow p = h.resolve follow p ∨ h'.LeadsNowhere follow p := by
  cases hfine : Walk.refusal p with
  | some cause => exact Or.inl ((resolve_of_refusal hfine).trans (resolve_of_refusal hfine).symm)
  | none =>
      rw [leadsNowhere_iff hfine]
      refine (Walk.ofSteps_of_fewer hfewer _ p).imp ?_ id
      intro hsame
      rw [resolve, Walk.resolve_eq, hsame, hdirectory, ← Walk.resolve_eq, resolve]

/-- Following a link at the end of a path that leads to nothing leads to nothing. -/
theorem LeadsNowhere.following (hnowhere : h.LeadsNowhere false p) : h.LeadsNowhere true p := by
  cases hfine : Walk.refusal p with
  | some cause =>
      rwa [LeadsNowhere, resolve_of_refusal hfine] at hnowhere ⊢
  | none =>
      rw [leadsNowhere_iff hfine] at hnowhere ⊢
      unfold Walk.ofSteps at hnowhere ⊢
      generalize Walk.maxLinks = links at hnowhere ⊢
      cases hstart : Walk.start h.process.directory p with
      | error errno =>
          rw [hstart] at hnowhere
          exact hnowhere
      | ok here =>
          rw [hstart] at hnowhere
          have hlonger : Walk.Nowhere h.look (Walk.go h.look true links here
              (Step.ofPath p ++ List.replicate 0 .here)) := Walk.nowhere_go hnowhere
          rwa [List.replicate_zero, List.append_nil] at hlonger

/-! ## Paths that name something -/

theorem exists?_iff :
    h.exists? p = true ↔ ∃ place, h.resolve true p = .ok place ∧ (h.look place).isSome = true := by
  unfold exists? find
  cases hplace : h.resolve true p with
  | error cause => simp [Bind.bind, Except.bind, Except.isOk, Except.toBool]
  | ok place =>
      cases hlook : h.look place <;>
        simp [Bind.bind, Except.bind, Except.isOk, Except.toBool, hlook]

theorem LeadsNowhere.not_exists (hnowhere : h.LeadsNowhere true p) : h.exists? p = false := by
  rw [Bool.eq_false_iff, Ne, exists?_iff]
  rintro ⟨place, hplace, hsome⟩
  rcases hnowhere with hstuck | ⟨found, hfound, hnone⟩
  · rw [hstuck] at hplace
    cases hplace
  · rw [hfound] at hplace
    cases hplace
    rw [hnone] at hsome
    cases hsome

/-- What is not there cannot turn up where less is to be seen. -/
theorem not_exists_of_fewer (hdirectory : h'.process.directory = h.process.directory)
    (hfewer : Walk.Fewer h'.look h.look) (hnot : h.exists? p = false) :
    h'.exists? p = false := by
  rcases resolve_of_fewer hdirectory hfewer true p with hsame | hgone
  · rw [Bool.eq_false_iff, Ne, exists?_iff] at hnot ⊢
    rintro ⟨place, hplace, hsome⟩
    refine hnot ⟨place, hsame ▸ hplace, ?_⟩
    rcases hfewer place with heq | hnone
    · exact heq ▸ hsome
    · rw [hnone] at hsome
      cases hsome
  · exact hgone.not_exists

end Host
end ContainerLaunch
