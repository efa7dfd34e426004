import ContainerLaunch.Proofs.GroupLists
/-!
# Who the user of a container is

A caller may ask for the number of another user, and for groups in place of its own.  The
container is then told about that user, about those groups and about the primary group of
the user.  Where the database has no user for the number, though, the primary group is taken
to be that of the superuser, which nobody has asked for.
-/

namespace ContainerLaunch.ContainerUser

variable {d : Directory} {c : Caller} {t : Target} {gid : UInt32} {name : String}

/-! ## The groups -/

theorem get?_addGroup (d : Directory) (groups : SortedMap UInt32 String) (first gid : UInt32) :
    (addGroup d groups first).get? gid =
      (groups.get? gid).or (if gid = first then d.nameOfGroup gid else none) := by
  unfold addGroup
  by_cases hfirst : gid = first
  · subst hfirst
    rw [SortedMap.contains_eq_isSome_get?, if_pos rfl, Directory.nameOfGroup]
    cases hthere : groups.get? gid with
    | some name => simp [hthere]
    | none =>
        cases hgroup : d.groupById gid with
        | some g => simp [SortedMap.get?_insert]
        | none => simp [hthere]
  · rw [if_neg hfirst, Option.or_none]
    split
    · rfl
    · split
      · rw [SortedMap.get?_insert, if_neg (Ne.symm hfirst)]
      · rfl

/-- Adding groups one after the other adds those that the database names. -/
theorem get?_foldl_addGroup (d : Directory) (gids : List UInt32)
    (groups : SortedMap UInt32 String) (gid : UInt32) :
    (gids.foldl (addGroup d) groups).get? gid =
      (groups.get? gid).or (if gid ∈ gids then d.nameOfGroup gid else none) := by
  induction gids generalizing groups with
  | nil => simp
  | cons first rest ih =>
      rw [List.foldl_cons, ih, get?_addGroup, Option.or_assoc]
      by_cases hfirst : gid = first
      · subst hfirst
        by_cases hrest : gid ∈ rest <;> simp [hrest]
      · simp [hfirst]

/-! ## Another user -/

/-- A group belongs to a target: it is one of the groups that are asked for, or the primary
group of the user. -/
def BelongsTo (d : Directory) (t : Target) (gid : UInt32) : Prop :=
  gid ∈ t.gids ∨ (d.userById t.uid).map Account.gid = some gid

theorem ofTarget_eq (d : Directory) (home : String) (uid : UInt32) :
    (ofTarget d home uid).uid = uid ∧ (ofTarget d home uid).home = home ∧
      (ofTarget d home uid).gid = ((d.userById uid).map Account.gid).getD 0 ∧
      (ofTarget d home uid).groups = .empty := by
  unfold ofTarget
  cases huser : d.userById uid with
  | none => exact ⟨rfl, rfl, rfl, rfl⟩
  | some u =>
      have huid : u.uid = uid := by simpa using List.find?_some huser
      exact ⟨huid, rfl, rfl, rfl⟩

/-- The groups of a target are those that are asked for and the primary one, as far as the
database names them. -/
theorem get?_groups_describe :
    (describe d c (some t)).groups.get? gid =
      if gid ∈ t.gids ∨ gid = (describe d c (some t)).gid then d.nameOfGroup gid else none := by
  have hgid : (describe d c (some t)).gid = (ofTarget d c.home t.uid).gid := rfl
  have hgroups : (describe d c (some t)).groups =
      (t.gids ++ [(ofTarget d c.home t.uid).gid]).foldl (addGroup d)
        (ofTarget d c.home t.uid).groups := rfl
  have hnone : (SortedMap.empty : SortedMap UInt32 String).get? gid = none := rfl
  rw [hgroups, hgid, get?_foldl_addGroup, (ofTarget_eq d c.home t.uid).2.2.2, hnone,
    Option.none_or]
  simp only [List.mem_append, List.mem_singleton]

/-- The user of a container for whom a number and groups are asked is the one of that number
and has the home directory of the caller.  Its groups are those that are asked for and its
primary one, each under the name that the database gives to it.  The primary group is that of
the user in the database, or that of the superuser if there is no such user; so all groups
belong to the target exactly if there is one, or the group of the superuser is asked for. -/
theorem target_groups_iff (d : Directory) (c : Caller) (t : Target) :
    let info := describe d c (some t)
    info.uid = t.uid ∧ info.home = c.home ∧
      info.gid = ((d.userById t.uid).map Account.gid).getD 0 ∧
      (∀ gid name, info.groups.get? gid = some name ↔
        (gid ∈ t.gids ∨ gid = info.gid) ∧ d.Names gid name) ∧
      ((BelongsTo d t info.gid ∧ ∀ gid, info.groups.contains gid = true → BelongsTo d t gid) ↔
        (d.userById t.uid).isSome = true ∨ 0 ∈ t.gids) := by
  intro info
  obtain ⟨huid, hhome, hgid, -⟩ := ofTarget_eq d c.home t.uid
  have hgid : info.gid = ((d.userById t.uid).map Account.gid).getD 0 := hgid
  refine ⟨huid, hhome, hgid, ?_, ?_⟩
  · intro gid name
    rw [get?_groups_describe, Option.ite_none_right_eq_some]
    exact Iff.rfl
  · constructor
    · rintro ⟨hbelongs, -⟩
      cases huser : d.userById t.uid with
      | some u => exact Or.inl rfl
      | none =>
          rw [hgid] at hbelongs
          simpa [BelongsTo, huser] using hbelongs
    · intro hknown
      have hprimary : BelongsTo d t info.gid := by
        rw [hgid]
        cases huser : d.userById t.uid with
        | some u => exact Or.inr (by rw [huser]; rfl)
        | none =>
            rw [huser] at hknown
            exact Or.inl (hknown.resolve_left (by decide))
      refine ⟨hprimary, fun gid hthere => ?_⟩
      rw [SortedMap.contains_eq_isSome_get?, get?_groups_describe] at hthere
      split at hthere
      · next hgroup =>
        rcases hgroup with hasked | rfl
        · exact Or.inl hasked
        · exact hprimary
      · cases hthere

/-- A user whom the database does not know is given the group of the superuser. -/
theorem unknown_target_in_group_of_superuser :
    let directory : Directory := ⟨[], [⟨0, "root"⟩, ⟨4001, "alice"⟩]⟩
    let info := describe directory default (some ⟨5000, [4001]⟩)
    info.gid = 0 ∧ info.groups.get? 0 = some "root" ∧ ¬ BelongsTo directory ⟨5000, [4001]⟩ 0 := by
  refine ⟨by decide +kernel, by decide +kernel, ?_⟩
  rintro (hasked | hprimary)
  · revert hasked
    decide
  · cases hprimary

end ContainerLaunch.ContainerUser
