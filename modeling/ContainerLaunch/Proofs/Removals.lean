import ContainerLaunch.Host.Removal
import ContainerLaunch.Proofs.Actions
import ContainerLaunch.Proofs.Text
import ContainerLaunch.Proofs.Walks
/-!
# What a removal leaves

A removal that succeeds, be it that there was nothing to remove, leaves a host on which the
path leads to nothing, and on which nothing is to be seen that was not to be seen before.
Doing it again changes nothing and succeeds.
-/

namespace ContainerLaunch

/-! ## Trees without some places -/

namespace Tree

/-- Of a tree with only those entries whose places are kept the other places are gone. -/
theorem find?_filter (t : Tree) {keep : Place → Bool} (hroot : keep [] = true) (p : Place) :
    (⟨t.entries.filter fun e => keep e.1⟩ : Tree).find? p = if keep p then t.find? p else none := by
  simp only [find?, find?_filter_key t.entries keep p]
  by_cases hkeep : keep p = true
  · simp only [hkeep, if_true]
  · have hinside : p.isEmpty = false := by
      cases p with
      | nil => exact absurd hroot hkeep
      | cons name rest => rfl
    simp only [hinside, hkeep, if_false, Bool.false_eq_true]

end Tree

namespace Host

variable {h h' : Host} {p : Path} {place : Place}

/-! ## Steps of a path with slashes at its end -/

theorem getLast?_withoutEndSlashes (p : Path) :
    (withoutEndSlashes p).text.toList.getLast? ≠ some '/' := by
  intro hslash
  rw [withoutEndSlashes, String.toList_ofList] at hslash
  cases Text.getLast?_dropTrailing _ _ _ hslash

theorem exists_endSlashes (p : Path) :
    ∃ n, p.text.toList = (withoutEndSlashes p).text.toList ++ List.replicate n '/' := by
  apply (Text.dropTrailing_eq_iff (getLast?_withoutEndSlashes p)).mp
  rw [withoutEndSlashes, String.toList_ofList]

theorem ofPath_withoutEndSlashes (p : Path) :
    Step.ofPath (withoutEndSlashes p) = (Text.pieces '/' p.text).filterMap Step.ofPiece := by
  obtain ⟨n, hn⟩ := exists_endSlashes p
  have hempty : ((List.replicate n ([] : List Char)).map String.ofList).filterMap
      Step.ofPiece = [] := by
    rw [List.map_replicate, List.filterMap_replicate]
    rfl
  unfold Step.ofPath
  rw [if_neg (by simpa using getLast?_withoutEndSlashes p), Text.pieces, Text.pieces, hn,
    Text.piecesOf_append_replicate, List.map_append, List.filterMap_append, hempty,
    List.append_nil]

/-- Slashes at the end of a path ask for a directory and change nothing else about it. -/
theorem ofPath_eq (p : Path) :
    ∃ n, Step.ofPath p = Step.ofPath (withoutEndSlashes p) ++ List.replicate n .here := by
  rw [ofPath_withoutEndSlashes]
  unfold Step.ofPath
  by_cases hslash : (p.text.toList.getLast? == some '/') = true
  · exact ⟨1, if_pos hslash⟩
  · exact ⟨0, (if_neg hslash).trans (List.append_nil _).symm⟩

theorem text_ne_of_steps (hsteps : Step.ofPath p ≠ []) : p.text.toList ≠ [] := by
  intro hnil
  apply hsteps
  rw [Step.ofPath, Text.pieces, hnil]
  rfl

theorem withoutEndSlashes_isPrefix (p : Path) :
    (withoutEndSlashes p).text.toList <+: p.text.toList := by
  obtain ⟨n, hn⟩ := exists_endSlashes p
  exact ⟨_, hn.symm⟩

theorem start_withoutEndSlashes (cwd : Option Place)
    (hsteps : Step.ofPath (withoutEndSlashes p) ≠ []) :
    Walk.start cwd (withoutEndSlashes p) = Walk.start cwd p :=
  Walk.start_of_isPrefix cwd (withoutEndSlashes_isPrefix p) (text_ne_of_steps hsteps)

theorem refusal_withoutEndSlashes (hsteps : Step.ofPath (withoutEndSlashes p) ≠ [])
    (hfine : Walk.refusal p = none) : Walk.refusal (withoutEndSlashes p) = none :=
  Walk.refusal_of_isPrefix (withoutEndSlashes_isPrefix p) (text_ne_of_steps hsteps) hfine

/-! ## What is still to be seen -/

/-- Nothing that the kernel shows by itself lies below a place where it shows nothing. -/
theorem descriptorLink_of_isUnder {q : Place} (hnone : h.descriptorLink place = none)
    (hunder : q.isUnder place = true) : h.descriptorLink q = none := by
  have hbelow : place <+: q := Place.isUnder_iff.mp hunder
  have houtside : place.isPrefixOf descriptorPlace = false := by
    unfold descriptorLink at hnone
    split at hnone
    · rfl
    · exact Bool.eq_false_iff.mpr fun hleads => by simp [hleads] at hnone
  by_cases hsame : q = place
  · rw [hsame, hnone]
  · -- below another place there is no directory of the kernel, and no link of it either
    have hshort : ¬ place <+: descriptorPlace := by
      rw [← List.isPrefixOf_iff_prefix, houtside]
      exact Bool.false_ne_true
    unfold descriptorLink
    split
    · next name =>
      rcases List.prefix_concat_iff.mp (show place <+: descriptorPlace ++ [name] from hbelow)
        with heq | hleads
      · exact absurd heq.symm hsame
      · exact absurd hleads hshort
    · refine if_neg ?_
      rw [List.isPrefixOf_iff_prefix]
      exact fun hleads => hshort (hbelow.trans hleads)

/-- The root is one of the directories that the kernel shows. -/
theorem ne_nil_of_descriptorLink (hnone : h.descriptorLink place = none) : place ≠ [] := by
  rintro rfl
  cases hnone

/-- Where only files are not kept, just they are no longer to be seen. -/
theorem look_of_filter {keep : Place → Bool} (hroot : keep [] = true)
    (hlinks : ∀ q, keep q = false → h.descriptorLink q = none)
    (htree : h'.tree = ⟨h.tree.entries.filter fun e => keep e.1⟩)
    (hsame : h'.descriptors = h.descriptors) (q : Place) :
    h'.look q = if keep q = true then h.look q else none := by
  have hlink : h'.descriptorLink q = h.descriptorLink q := by
    have hnumber : h'.descriptor? = h.descriptor? := by
      funext n
      rw [descriptor?, hsame, descriptor?]
    unfold descriptorLink
    rw [hnumber]
  rw [look, htree, Tree.find?_filter _ hroot, hlink]
  cases hq : keep q with
  | true => rw [if_pos rfl, if_pos rfl, look]
  | false =>
      rw [hlinks q hq]
      rfl

/-- Without a place and what lies below it. -/
theorem look_of_prune {k : Host} (hnone : h.descriptorLink place = none)
    (htree : k.tree = h.tree.prune place) (hsame : k.descriptors = h.descriptors) (q : Place) :
    k.look q = if (!q.isUnder place) = true then h.look q else none := by
  have hroot : (!Place.isUnder [] place) = true := by
    cases place with
    | nil => exact absurd rfl (ne_nil_of_descriptorLink hnone)
    | cons name rest => rfl
  have hlinks : ∀ q : Place, (!q.isUnder place) = false → h.descriptorLink q = none := by
    intro q hq
    exact descriptorLink_of_isUnder hnone (by simpa using hq)
  exact look_of_filter hroot hlinks htree hsame q

/-- Without what lies below a place. -/
theorem look_of_hollow {k : Host} (hnone : h.descriptorLink place = none)
    (htree : k.tree = h.tree.hollow place) (hsame : k.descriptors = h.descriptors) (q : Place) :
    k.look q = if (q == place || !q.isUnder place) = true then h.look q else none := by
  have hroot : (([] : Place) == place || !Place.isUnder [] place) = true := by
    cases place with
    | nil => rfl
    | cons name rest => rfl
  have hlinks : ∀ q : Place, (q == place || !q.isUnder place) = false →
      h.descriptorLink q = none := by
    intro q hq
    exact descriptorLink_of_isUnder hnone (by simp_all)
  exact look_of_filter hroot hlinks htree hsame q

/-- Where only some places are kept, the others have become empty. -/
theorem fewer_of_kept {keep : Place → Bool}
    (hlook : ∀ q, h'.look q = if keep q = true then h.look q else none) :
    Walk.Fewer h'.look h.look := by
  intro q
  rw [hlook q]
  split
  · exact Or.inl rfl
  · exact Or.inr rfl

theorem fewer_of_prune {k : Host} (hnone : h.descriptorLink place = none)
    (htree : k.tree = h.tree.prune place) (hsame : k.descriptors = h.descriptors) :
    Walk.Fewer k.look h.look ∧ k.look place = none := by
  have hlook := look_of_prune hnone htree hsame
  refine ⟨fewer_of_kept hlook, ?_⟩
  rw [hlook place, if_neg]
  simp [Place.isUnder]

/-! ## The same path with slashes at its end -/

/-- A path that leads to nothing leads to nothing with slashes at its end. -/
theorem LeadsNowhere.withEndSlashes (hfine : Walk.refusal p = none)
    (hsteps : Step.ofPath (withoutEndSlashes p) ≠ [])
    (hnowhere : h.LeadsNowhere false (withoutEndSlashes p)) : h.LeadsNowhere false p := by
  rw [leadsNowhere_iff (refusal_withoutEndSlashes hsteps hfine)] at hnowhere
  rw [leadsNowhere_iff hfine]
  obtain ⟨n, hn⟩ := ofPath_eq p
  unfold Walk.ofSteps at hnowhere ⊢
  generalize Walk.maxLinks = links at hnowhere ⊢
  rw [start_withoutEndSlashes _ hsteps] at hnowhere
  cases hstart : Walk.start h.process.directory p with
  | error errno =>
      rw [hstart] at hnowhere
      exact hnowhere
  | ok here =>
      rw [hstart] at hnowhere
      simp only [hn]
      exact Walk.nowhere_go hnowhere

/-- A path that leads to a directory leads there with slashes at its end. -/
theorem resolve_withEndSlashes (hfine : Walk.refusal p = none)
    (hsteps : Step.ofPath (withoutEndSlashes p) ≠ [])
    (hplace : h.resolve false (withoutEndSlashes p) = .ok place)
    (hdirectory : Walk.isDirectoryAt h.look place = true) : h.resolve false p = .ok place := by
  have hwalk := (Walk.refusal_of_resolve_ok hplace).2
  rw [resolve, Walk.resolve_eq, hfine]
  obtain ⟨n, hn⟩ := ofPath_eq p
  unfold Walk.ofSteps at hwalk ⊢
  generalize Walk.maxLinks = links at hwalk ⊢
  rw [start_withoutEndSlashes _ hsteps] at hwalk
  cases hstart : Walk.start h.process.directory p with
  | error errno =>
      rw [hstart] at hwalk
      cases hwalk
  | ok here =>
      rw [hstart] at hwalk
      simp only [hn, Walk.go_append_here hwalk hdirectory]
      rfl

/-! ## Removals -/

/-- What holds once a path is removed: it leads to nothing, and nothing is to be seen that
was not to be seen before. -/
structure Removed (h h' : Host) (p : Path) : Prop where
  nowhere : h'.LeadsNowhere false p
  fewer : Walk.Fewer h'.look h.look
  directory : h'.process.directory = h.process.directory

/-- What leads to nothing counts as removed. -/
theorem Removed.of_leadsNowhere (hnowhere : h.LeadsNowhere false p) : Removed h h p where
  nowhere := hnowhere
  fewer := .refl h.look
  directory := rfl

/-- Where nothing is left at the place of a path, the path is removed. -/
theorem Removed.of_gone (hplace : h.resolve false p = .ok place)
    (hfewer : Walk.Fewer h'.look h.look)
    (hdirectory : h'.process.directory = h.process.directory) (hgone : h'.look place = none) :
    Removed h h' p where
  nowhere := by
    rcases resolve_of_fewer hdirectory hfewer false p with hsame | hnowhere
    · exact Or.inr ⟨place, hsame.trans hplace, hgone⟩
    · exact hnowhere
  fewer := hfewer
  directory := hdirectory

/-- What the last step of a removal finds when it succeeds. -/
theorem removingEmpty_ok (hrun : h.removingEmpty p = .ok h') :
    Step.ofPath (withoutEndSlashes p) ≠ [] ∧
      ∃ place, h.resolve false (withoutEndSlashes p) = .ok place ∧
        Walk.isDirectoryAt h.look place = true ∧ h' = { h with tree := h.tree.prune place } := by
  unfold removingEmpty at hrun
  cases hlast : (Step.ofPath (withoutEndSlashes p)).getLast? with
  | none => simp [hlast] at hrun
  | some last =>
      have hsteps : Step.ofPath (withoutEndSlashes p) ≠ [] := by
        intro hnil
        rw [hnil] at hlast
        cases hlast
      simp only [hlast] at hrun
      cases hplace : h.resolve false (withoutEndSlashes p) with
      | error cause => simp [hplace, Bind.bind, Except.bind] at hrun
      | ok place =>
          simp only [hplace, Bind.bind, Except.bind] at hrun
          cases last with
          | here => cases hrun
          | up => cases hrun
          | enter name =>
              cases hlook : h.look place with
              | none => simp [hlook] at hrun
              | some inode =>
                  by_cases hdirectory : inode.isDirectory = true
                  · simp only [hlook, hdirectory, if_true, Except.ok.injEq] at hrun
                    refine ⟨hsteps, place, rfl, ?_, hrun.symm⟩
                    rw [Walk.isDirectoryAt, hlook]
                    exact hdirectory
                  · simp [hlook, hdirectory] at hrun

/-- The last step of a removal misses the directory only if its path leads to nothing. -/
theorem leadsNowhere_of_removingEmpty (hrun : h.removingEmpty p = .error (.system .noEntry)) :
    Step.ofPath (withoutEndSlashes p) ≠ [] ∧ h.LeadsNowhere false (withoutEndSlashes p) := by
  unfold removingEmpty at hrun
  cases hlast : (Step.ofPath (withoutEndSlashes p)).getLast? with
  | none =>
      simp only [hlast] at hrun
      cases hrun
  | some last =>
      have hsteps : Step.ofPath (withoutEndSlashes p) ≠ [] := by
        intro hnil
        rw [hnil] at hlast
        cases hlast
      refine ⟨hsteps, ?_⟩
      simp only [hlast] at hrun
      cases hplace : h.resolve false (withoutEndSlashes p) with
      | error cause =>
          simp only [hplace, Bind.bind, Except.bind, Except.error.injEq] at hrun
          exact Or.inl (hplace.trans (congrArg _ hrun))
      | ok place =>
          simp only [hplace, Bind.bind, Except.bind] at hrun
          cases last with
          | here => cases hrun
          | up => cases hrun
          | enter name =>
              cases hlook : h.look place with
              | none => exact Or.inr ⟨place, hplace, hlook⟩
              | some inode =>
                  by_cases hdirectory : inode.isDirectory = true
                  · simp [hlook, hdirectory] at hrun
                  · simp only [hlook, hdirectory, Bool.false_eq_true, if_false] at hrun
                    cases hrun

/-- The last step of a removal, on what the earlier steps left, removes the place that the
path named all along. -/
theorem eq_prune_of_removingEmpty {left : Host} (hplace : h.resolve false p = .ok place)
    (hfewer : Walk.Fewer left.look h.look)
    (hdirectory : left.process.directory = h.process.directory)
    (hrun : left.removingEmpty p = .ok h') : h' = { left with tree := left.tree.prune place } := by
  obtain ⟨hsteps, found, hfound, hthere, rfl⟩ := removingEmpty_ok hrun
  obtain ⟨inode, hinode, -⟩ := Walk.isDirectoryAt_iff.mp hthere
  -- what the last step finds without the slashes was there without them before
  have hbefore : h.resolve false (withoutEndSlashes p) = .ok found := by
    rcases resolve_of_fewer hdirectory hfewer false (withoutEndSlashes p) with hsame | hnowhere
    · exact hsame.symm.trans hfound
    · rcases hnowhere with hstuck | ⟨other, hother, hgone⟩
      · rw [hstuck] at hfound
        cases hfound
      · obtain rfl : other = found := Except.ok.inj (hother.symm.trans hfound)
        rw [hgone] at hinode
        cases hinode
  have hall : h.resolve false p = .ok found :=
    resolve_withEndSlashes (Walk.refusal_of_resolve_ok hplace).1 hsteps hbefore
      (hfewer.isDirectoryAt hthere)
  rw [Except.ok.inj (hall.symm.trans hplace)]

/-- A removal whose last step succeeds on what the earlier steps left is done. -/
theorem removed_of_last {left : Host} (hplace : h.resolve false p = .ok place)
    (hfewer : Walk.Fewer left.look h.look)
    (hdirectory : left.process.directory = h.process.directory)
    (hnone : left.descriptorLink place = none) (hrun : left.removingEmpty p = .ok h') :
    Removed h h' p := by
  obtain rfl := eq_prune_of_removingEmpty hplace hfewer hdirectory hrun
  obtain ⟨hless, hgone⟩ := fewer_of_prune
    (k := { left with tree := left.tree.prune place }) hnone rfl rfl
  exact .of_gone hplace (hless.trans hfewer) hdirectory hgone

/-- A removal whose last step finds nothing is done as well. -/
theorem removed_of_missing {left : Host} (hplace : h.resolve false p = .ok place)
    (hfewer : Walk.Fewer left.look h.look)
    (hdirectory : left.process.directory = h.process.directory)
    (hrun : left.removingEmpty p = .error (.system .noEntry)) : Removed h left p := by
  obtain ⟨hsteps, hnowhere⟩ := leadsNowhere_of_removingEmpty hrun
  exact ⟨hnowhere.withEndSlashes (Walk.refusal_of_resolve_ok hplace).1 hsteps, hfewer, hdirectory⟩

/-- A link that a path names is removed at once. -/
theorem removed_of_prune (hplace : h.resolve false p = .ok place)
    (hnone : h.descriptorLink place = none) :
    Removed h { h with tree := h.tree.prune place } p := by
  obtain ⟨hfewer, hgone⟩ :=
    fewer_of_prune (k := { h with tree := h.tree.prune place }) hnone rfl rfl
  exact .of_gone hplace hfewer rfl hgone

/-- A removal that succeeds, or fails because there is nothing to remove, leaves the path
removed. -/
theorem removed_of_removing {r : Except IoError Unit} (hrun : h.removing p = (r, h'))
    (hdone : r = .ok () ∨ r = .error (.system .noEntry)) : Removed h h' p := by
  unfold removing at hrun
  cases hplace : h.resolve false p with
  | error cause =>
      simp only [hplace, Prod.mk.injEq] at hrun
      obtain ⟨rfl, rfl⟩ := hrun
      obtain rfl : cause = .system .noEntry := by simpa using hdone
      exact .of_leadsNowhere (Or.inl hplace)
  | ok place =>
      by_cases hlink : (h.descriptorLink place).isSome = true
      · simp only [hplace, hlink, if_true, Prod.mk.injEq] at hrun
        obtain ⟨rfl, rfl⟩ := hrun
        rcases hdone with hfailed | hfailed <;> cases hfailed
      · have hnone : h.descriptorLink place = none := by simpa using hlink
        simp only [hplace, hlink, Bool.false_eq_true, if_false] at hrun
        cases hnode : (h.look place).map Inode.node with
        | none =>
            simp only [hnode, Prod.mk.injEq] at hrun
            obtain ⟨-, rfl⟩ := hrun
            exact .of_leadsNowhere (Or.inr ⟨place, hplace, by simpa using hnode⟩)
        | some node =>
            cases node with
            | link target | sealedLink =>
                simp only [hnode, Prod.mk.injEq] at hrun
                obtain ⟨-, rfl⟩ := hrun
                exact removed_of_prune hplace hnone
            | directory =>
                have hfewer := fewer_of_kept
                  (look_of_hollow (k := { h with tree := h.tree.hollow place }) hnone rfl rfl)
                simp only [hnode] at hrun
                cases hlast : { h with tree := h.tree.hollow place }.removingEmpty p with
                | ok h₁ =>
                    simp only [hlast, Prod.mk.injEq] at hrun
                    obtain ⟨-, rfl⟩ := hrun
                    exact removed_of_last hplace hfewer rfl hnone hlast
                | error cause =>
                    simp only [hlast, Prod.mk.injEq] at hrun
                    obtain ⟨rfl, rfl⟩ := hrun
                    obtain rfl : cause = .system .noEntry := by simpa using hdone
                    exact removed_of_missing hplace hfewer rfl hlast
            | file content | program behaviour =>
                simp only [hnode, Prod.mk.injEq] at hrun
                obtain ⟨rfl, -⟩ := hrun
                rcases hdone with hfailed | hfailed <;> cases hfailed

/-! ## What a removal changes -/

/-- What a removal makes of a host, whichever way it ends: nothing, or it empties the place
of the path, or takes it away as well. -/
theorem removing_leaves (h : Host) (p : Path) :
    (h.removing p).2 = h ∨
      ∃ place tree, h.resolve false p = .ok place ∧ h.descriptorLink place = none ∧
        (h.removing p).2 = { h with tree := tree } ∧
        (tree = h.tree.prune place ∨ tree = h.tree.hollow place ∨
          tree = (h.tree.hollow place).prune place) := by
  unfold removing
  cases hplace : h.resolve false p with
  | error cause => exact Or.inl rfl
  | ok place =>
      by_cases hlink : (h.descriptorLink place).isSome = true
      · simp only [hlink, if_true, true_or]
      · have hnone : h.descriptorLink place = none := by simpa using hlink
        simp only [hlink, Bool.false_eq_true, if_false]
        cases hnode : (h.look place).map Inode.node with
        | none => exact Or.inl rfl
        | some node =>
            cases node with
            | link target | sealedLink =>
                exact Or.inr ⟨place, _, rfl, hnone, rfl, Or.inl rfl⟩
            | file content | program behaviour => exact Or.inl rfl
            | directory =>
                refine Or.inr ⟨place, ?_⟩
                have hfewer := fewer_of_kept
                  (look_of_hollow (k := { h with tree := h.tree.hollow place }) hnone rfl rfl)
                cases hlast : { h with tree := h.tree.hollow place }.removingEmpty p with
                | ok h₁ =>
                    obtain rfl := eq_prune_of_removingEmpty hplace hfewer rfl hlast
                    exact ⟨_, rfl, hnone, rfl, Or.inr (Or.inr rfl)⟩
                | error cause => exact ⟨_, rfl, hnone, rfl, Or.inr (Or.inl rfl)⟩

/-- A place lies inside a path: the path leads there, or to a place above it. -/
def Covers (h : Host) (p : Path) (q : Place) : Prop :=
  ∃ place, h.resolve false p = .ok place ∧ place <+: q

/-- A host differs from another one in its files alone, and some of those that lie inside are
gone. -/
structure Lessened (inside : Place → Prop) (h h' : Host) : Prop where
  others : h' = { h with tree := h'.tree }
  fewer : Walk.Fewer h'.look h.look
  outside : ∀ q, ¬ inside q → h'.look q = h.look q

namespace Lessened

variable {inside : Place → Prop}

theorem refl (h : Host) : Lessened inside h h :=
  ⟨rfl, .refl h.look, fun _ _ => rfl⟩

theorem trans {h'' : Host} (hfirst : Lessened inside h h') (hsecond : Lessened inside h' h'') :
    Lessened inside h h'' where
  others := by rw [hsecond.others, hfirst.others]
  fewer := hsecond.fewer.trans hfirst.fewer
  outside q hq := (hsecond.outside q hq).trans (hfirst.outside q hq)

theorem mono {more : Place → Prop} (hless : Lessened inside h h') (himp : ∀ q, inside q → more q) :
    Lessened more h h' :=
  ⟨hless.others, hless.fewer, fun q hq => hless.outside q fun hin => hq (himp q hin)⟩

theorem directory (hless : Lessened inside h h') :
    h'.process.directory = h.process.directory := by
  rw [hless.others]

end Lessened

/-- A removal takes away nothing but files that lie inside its path. -/
theorem lessened_of_removing (h : Host) (p : Path) :
    Lessened (h.Covers p) h (h.removing p).2 := by
  rcases removing_leaves h p with hsame | ⟨place, tree, hplace, hnone, hleft, htree⟩
  · rw [hsame]
    exact .refl h
  · have hkept : ∃ keep : Place → Bool, (∀ q, keep q = false → place <+: q) ∧
        ∀ q, { h with tree := tree }.look q = if keep q = true then h.look q else none := by
      rcases htree with rfl | rfl | rfl
      · exact ⟨_, by simp [Place.isUnder], look_of_prune hnone rfl rfl⟩
      · exact ⟨_, by simp [Place.isUnder], look_of_hollow hnone rfl rfl⟩
      · refine ⟨fun q => !q.isUnder place, by simp [Place.isUnder], fun q => ?_⟩
        have hhollow := look_of_hollow (k := { h with tree := h.tree.hollow place }) hnone rfl rfl
        have hpruned := look_of_prune (h := { h with tree := h.tree.hollow place })
          (k := { h with tree := (h.tree.hollow place).prune place }) hnone rfl rfl
        rw [hpruned, hhollow]
        split
        · exact if_pos (by simp_all)
        · rfl
    obtain ⟨keep, hinside, hlook⟩ := hkept
    rw [hleft]
    refine ⟨rfl, fewer_of_kept hlook, fun q hq => ?_⟩
    rw [hlook q]
    cases hkeep : keep q with
    | true => exact if_pos rfl
    | false => exact absurd ⟨place, hplace, hinside q hkeep⟩ hq

/-- A path that leads to nothing cannot be removed, and the host stays as it is. -/
theorem removing_of_leadsNowhere (hnowhere : h.LeadsNowhere false p) :
    h.removing p = (.error (.system .noEntry), h) := by
  unfold removing
  rcases hnowhere with hstuck | ⟨place, hplace, hnone⟩
  · rw [hstuck]
  · have hlink : (h.descriptorLink place).isSome = false := by
      rw [look, Option.or_eq_none_iff] at hnone
      rw [hnone.2]
      rfl
    simp only [hplace, hlink, Bool.false_eq_true, if_false, hnone, Option.map_none]

/-- Where less is to be seen already, a removal takes away nothing but what lay inside its
path before. -/
theorem Lessened.removing {inside : Place → Prop} (hless : Lessened inside h h')
    (hinside : ∀ q, h.Covers p q → inside q) : Lessened inside h (h'.removing p).2 := by
  rcases resolve_of_fewer hless.directory hless.fewer false p with hsame | hnowhere
  · refine hless.trans ((lessened_of_removing h' p).mono ?_)
    rintro q ⟨place, hplace, hbelow⟩
    exact hinside q ⟨place, hsame ▸ hplace, hbelow⟩
  · rwa [removing_of_leadsNowhere hnowhere]

end Host

namespace Action

variable {h h' : Host} {p : Path}

theorem perform_removeAll (p : Path) (h : Host) :
    (removeAll p).perform h =
      (match (h.removing p).1 with
        | .ok () => .ok ()
        | .error cause => if cause.isNotFound then .ok () else .error (.atPath p cause),
        (h.removing p).2) := by
  have hget : (get : Action Host).perform h = (.ok h, h) := rfl
  have hset : ∀ left : Host, (set left : Action PUnit).perform h = (.ok ⟨⟩, left) :=
    fun _ => rfl
  rw [removeAll, perform_bind, hget]
  simp only [perform_bind, hset]
  cases (h.removing p).1 with
  | ok _ => rfl
  | error cause =>
      by_cases hmissing : cause.isNotFound = true
      · simp only [hmissing, if_true, perform_pure]
      · simp only [hmissing, Bool.false_eq_true, if_false, perform_fail]

/-- A directory that was removed, or was not there, is removed. -/
theorem removed_of_removeAll (hrun : (removeAll p).perform h = (.ok (), h')) :
    h.Removed h' p := by
  rw [perform_removeAll] at hrun
  obtain ⟨hdone, rfl⟩ := Prod.mk.inj hrun
  refine Host.removed_of_removing (r := (h.removing p).1) rfl ?_
  cases hresult : (h.removing p).1 with
  | ok _ => exact Or.inl rfl
  | error cause =>
      rw [hresult] at hdone
      by_cases hmissing : cause.isNotFound = true
      · refine Or.inr ?_
        rw [show cause = .system .noEntry by simpa [IoError.isNotFound] using hmissing]
      · simp [hmissing] at hdone

/-- Where a path leads to nothing there is nothing to remove, and nothing changes. -/
theorem perform_removeAll_of_leadsNowhere (hnowhere : h.LeadsNowhere false p) :
    (removeAll p).perform h = (.ok (), h) := by
  rw [perform_removeAll, Host.removing_of_leadsNowhere hnowhere]
  rfl

end Action
end ContainerLaunch
