import ContainerLaunch.Instance.Record
import ContainerLaunch.Policy.Files
import ContainerLaunch.Proofs.Walks
/-!
# What a walk looks at

A walk over the steps of a path looks at some places of the host and at no others: the
place that it has reached after each step, and the place to which a name would lead.
Whatever is read under a path is therefore the same on any two hosts that agree at the
places of its walk.

The case that matters is `/proc`.  What a process finds there is in the hands of whoever
runs the other processes, so two hosts are compared that may differ in everything below
`/proc` and in nothing else.
-/

namespace ContainerLaunch

/-! ## Walks -/

namespace Walk

variable {look look' : Lookup} {follow : Bool}

/-- The places at which a walk over steps looks, and the one where it ends; `onLink` says
where a walk through a link looks on. -/
def placesAlong (look : Lookup) (onLink : Place → List Step → List Place) (follow : Bool) :
    Place → List Step → List Place
  | here, [] => [here]
  | here, .here :: rest => placesAlong look onLink follow here rest
  | here, .up :: rest => placesAlong look onLink follow here.dropLast rest
  | here, .enter name :: rest =>
    here ::
      if !isDirectoryAt look here then []
      else if maxName < name.utf8ByteSize then []
      else
        let there := here ++ [name]
        there ::
          match (look there).map Inode.node with
          | none => []
          | some (.link target) =>
            if rest.isEmpty && !follow then []
            else onLink (if target.isAbsolute then [] else here) (Step.ofPath target ++ rest)
          | some .sealedLink => []
          | some .directory => placesAlong look onLink follow there rest
          | some _ => []

/-- The places at which a walk over steps looks, where `links` more links may be followed. -/
def placesFrom (look : Lookup) (follow : Bool) : Nat → Place → List Step → List Place
  | 0 => placesAlong look (fun _ _ => []) follow
  | links + 1 => placesAlong look (placesFrom look follow links) follow

theorem isDirectoryAt_congr {p : Place} (hsame : look' p = look p) :
    isDirectoryAt look' p = isDirectoryAt look p := by
  rw [isDirectoryAt, hsame, isDirectoryAt]

/-- What is seen at the places of a walk decides where it leads. -/
theorem along_congr {onLink onLink' : Place → List Step → Except Errno Place}
    {places : Place → List Step → List Place}
    (honLink : ∀ here steps, (∀ q ∈ places here steps, look' q = look q) →
      onLink' here steps = onLink here steps)
    {here : Place} {steps : List Step}
    (hsame : ∀ q ∈ placesAlong look places follow here steps, look' q = look q) :
    along look' onLink' follow here steps = along look onLink follow here steps := by
  induction steps generalizing here with
  | nil => rfl
  | cons step rest ih =>
      cases step with
      | here => exact ih hsame
      | up => exact ih hsame
      | enter name =>
          simp only [placesAlong, List.mem_cons, forall_eq_or_imp] at hsame
          obtain ⟨hhere, hrest⟩ := hsame
          simp only [along, isDirectoryAt_congr hhere]
          by_cases hdir : isDirectoryAt look here = true
          · simp only [hdir, Bool.not_true, Bool.false_eq_true, if_false] at hrest ⊢
            by_cases hlong : maxName < name.utf8ByteSize
            · simp only [hlong, if_true]
            · simp only [hlong, if_false, List.mem_cons, forall_eq_or_imp] at hrest ⊢
              obtain ⟨hthere, hon⟩ := hrest
              rw [hthere]
              -- the name is looked up once, and the walk goes on from what is there
              cases hnode : (look (here ++ [name])).map Inode.node with
              | none => rfl
              | some node =>
                  rw [hnode] at hon
                  cases node with
                  | link target =>
                      by_cases hlast : (rest.isEmpty && !follow) = true
                      · simp only [hlast, if_true]
                      · simp only [hlast, Bool.false_eq_true, if_false] at hon ⊢
                        exact honLink _ _ hon
                  | sealedLink => rfl
                  | directory => exact ih hon
                  | file content => rfl
                  | program behaviour => rfl
          · simp [hdir]

/-- A walk ends at one of the places at which it looks. -/
theorem mem_placesAlong {onLink : Place → List Step → Except Errno Place}
    {places : Place → List Step → List Place}
    (honLink : ∀ here steps place, onLink here steps = .ok place → place ∈ places here steps)
    {here : Place} {steps : List Step} {place : Place}
    (hwalk : along look onLink follow here steps = .ok place) :
    place ∈ placesAlong look places follow here steps := by
  fun_induction along look onLink follow here steps with
  | case1 here =>
      cases hwalk
      exact List.mem_singleton_self _
  | case2 here rest ih | case3 here rest ih => exact ih hwalk
  | case6 here name rest hdir hlong there | case8 here name rest hdir hlong there
  | case10 here name rest hdir hlong there | case13 here name rest hdir hlong there =>
      have hplace : there = place := Except.ok.inj hwalk
      simp [placesAlong, hdir, hlong, there, ← hplace]
  | case9 here name rest hdir hlong there target hnode hlast =>
      have hlink := honLink _ _ _ hwalk
      simp [placesAlong, hdir, hlong, there, hnode, hlast, hlink]
  | case12 here name rest hdir hlong there hnode ih =>
      simp [placesAlong, hdir, hlong, there, hnode, ih hwalk]
  | case4 | case5 | case7 | case11 | case14 => cases hwalk

theorem go_congr {links : Nat} {here : Place} {steps : List Step}
    (hsame : ∀ q ∈ placesFrom look follow links here steps, look' q = look q) :
    go look' follow links here steps = go look follow links here steps := by
  induction links generalizing here steps with
  | zero => exact along_congr (fun _ _ _ => rfl) hsame
  | succ links ih => exact along_congr (fun _ _ hplaces => ih hplaces) hsame

theorem mem_placesFrom {links : Nat} {here place : Place} {steps : List Step}
    (hwalk : go look follow links here steps = .ok place) :
    place ∈ placesFrom look follow links here steps := by
  induction links generalizing here steps place with
  | zero => exact mem_placesAlong (fun _ _ _ hlink => by cases hlink) hwalk
  | succ links ih => exact mem_placesAlong (fun _ _ _ hlink => ih hlink) hwalk

/-- A path that names a place leads there by a walk from where it starts. -/
theorem resolve_ok {cwd : Option Place} {p : Path} {place : Place}
    (hplace : resolve look cwd follow p = .ok place) :
    ∃ here, start cwd p = .ok here ∧
      go look follow maxLinks here (Step.ofPath p) = .ok place := by
  have hwalk : (start cwd p >>= fun here => go look follow maxLinks here (Step.ofPath p)) =
      .ok place := by
    unfold resolve at hplace
    split at hplace
    · cases hplace
    · split at hplace
      · cases hplace
      · split at hplace
        · cases hplace
        · split at hplace
          · next found hfound => rw [hfound, Except.ok.inj hplace]
          · cases hplace
  cases hstart : start cwd p with
  | error errno =>
      rw [hstart] at hwalk
      cases hwalk
  | ok here =>
      rw [hstart] at hwalk
      exact ⟨here, rfl, hwalk⟩

end Walk

/-! ## Paths that stay away from a place -/

namespace Host

/-- The places at which the walk to what a path names looks, with links followed. -/
def placesTo (h : Host) (p : Path) : List Place :=
  match Walk.start h.process.directory p with
  | .ok here => Walk.placesFrom h.look true Walk.maxLinks here (Step.ofPath p)
  | .error _ => []

/-- The way to what a path names leads to no place at or below another one. -/
def Avoids (h : Host) (base : Place) (p : Path) : Prop :=
  ∀ q ∈ h.placesTo p, q.isUnder base = false

instance (h : Host) (base : Place) (p : Path) : Decidable (h.Avoids base p) :=
  inferInstanceAs (Decidable (∀ q ∈ h.placesTo p, q.isUnder base = false))

variable {h h' : Host} {p : Path} {base place : Place}

theorem resolve_congr (hdir : h'.process.directory = h.process.directory)
    (hsame : ∀ q ∈ h.placesTo p, h'.look q = h.look q) :
    h'.resolve true p = h.resolve true p := by
  simp only [resolve, Walk.resolve, hdir]
  cases hstart : Walk.start h.process.directory p with
  | error errno => rfl
  | ok here =>
      simp only [placesTo, hstart] at hsame
      simp only [Bind.bind, Except.bind, Walk.go_congr hsame]

theorem mem_placesTo (hplace : h.resolve true p = .ok place) : place ∈ h.placesTo p := by
  obtain ⟨here, hstart, hwalk⟩ := Walk.resolve_ok hplace
  rw [placesTo, hstart]
  exact Walk.mem_placesFrom hwalk

/-! ## Hosts that differ in `/proc` -/

/-- The directory of the processes. -/
def processes : Place := ["proc"]

/-- Hosts that differ only at and below `/proc`: in what there is, in what may be opened,
in what is mounted, and in the descriptors, which the process finds there. -/
structure DiffersInProc (h h' : Host) : Prop where
  rest_eq : h' = { h with
    tree := h'.tree, restrictions := h'.restrictions, mounts := h'.mounts,
    descriptors := h'.descriptors }
  find_eq : ∀ p : Place, p.isUnder processes = false → h'.tree.find? p = h.tree.find? p
  refusal_eq : ∀ (p : Place) (writing : Bool), p.isUnder processes = false →
    h'.restrictions.refusal writing p = h.restrictions.refusal writing p
  mount_eq : ∀ p : Place, p.isUnder processes = false →
    (h'.mounts.find? fun m => p.isUnder m.place) = h.mounts.find? fun m => p.isUnder m.place

namespace DiffersInProc

variable (hdiff : h.DiffersInProc h')

include hdiff

/-- The descriptors of a process are seen nowhere but below `/proc`. -/
theorem look_eq {q : Place} (hq : q.isUnder processes = false) : h'.look q = h.look q := by
  have hlink : h'.descriptorLink q = h.descriptorLink q := by
    unfold descriptorLink
    split
    · simp [Place.isUnder, processes] at hq
    · rfl
  rw [look, hdiff.find_eq q hq, hlink, look]

theorem process_eq : h'.process = h.process := by
  rw [hdiff.rest_eq]

theorem resolve_eq (havoid : h.Avoids processes p) : h'.resolve true p = h.resolve true p :=
  resolve_congr (by rw [hdiff.process_eq]) fun q hq => hdiff.look_eq (havoid q hq)

theorem find_eq_of_avoids (havoid : h.Avoids processes p) : h'.find p = h.find p := by
  simp only [Host.find, hdiff.resolve_eq havoid]
  cases hplace : h.resolve true p with
  | error cause => rfl
  | ok place =>
      have hlook := hdiff.look_eq (havoid place (mem_placesTo hplace))
      simp only [Bind.bind, Except.bind, hlook]

theorem opening_eq (havoid : h.Avoids processes p) (access : Access) :
    h'.opening access p = h.opening access p := by
  simp only [opening, hdiff.resolve_eq havoid]
  cases hplace : h.resolve true p with
  | error cause => rfl
  | ok place =>
      have hout := havoid place (mem_placesTo hplace)
      simp only [Bind.bind, Except.bind, hdiff.look_eq hout, hdiff.refusal_eq place _ hout]

theorem readBytes_eq (havoid : h.Avoids processes p) : h'.readBytes p = h.readBytes p := by
  rw [readBytes, hdiff.opening_eq havoid, readBytes]

theorem readText_eq (havoid : h.Avoids processes p) : h'.readText p = h.readText p := by
  rw [readText, hdiff.readBytes_eq havoid, readText]

theorem stat_eq (havoid : h.Avoids processes p) : h'.stat p = h.stat p := by
  rw [stat, hdiff.find_eq_of_avoids havoid, stat]

theorem exists?_eq (havoid : h.Avoids processes p) : h'.exists? p = h.exists? p := by
  rw [exists?, hdiff.find_eq_of_avoids havoid, exists?]

/-! ## What is loaded -/

theorem loadRecord_eq (havoid : h.Avoids processes p) :
    InstanceRecord.load h' p = InstanceRecord.load h p := by
  rw [InstanceRecord.load, hdiff.readBytes_eq havoid, InstanceRecord.load]

theorem requireRootOwned_eq (havoid : h.Avoids processes p) :
    AdminPaths.requireRootOwned h' p = AdminPaths.requireRootOwned h p := by
  rw [AdminPaths.requireRootOwned, hdiff.stat_eq havoid, AdminPaths.requireRootOwned]

/-- The administrator's files are the same where neither the policy nor the capability
table is kept below `/proc`. -/
theorem loadFiles_eq {s : AdminPaths} (hconfig : h.Avoids processes s.config)
    (htable : h.Avoids processes s.capability) (isSuid : Bool) :
    s.load h' isSuid = s.load h isSuid := by
  have htrusted : s.ensureTrusted h' = s.ensureTrusted h := by
    simp only [AdminPaths.ensureTrusted, hdiff.requireRootOwned_eq hconfig,
      hdiff.requireRootOwned_eq htable, hdiff.exists?_eq htable]
  have hpolicy : AdminPaths.loadPolicy h' s.config = AdminPaths.loadPolicy h s.config := by
    simp only [AdminPaths.loadPolicy, hdiff.readText_eq hconfig]
  have hcapabilities :
      AdminPaths.loadCapabilities h' s.capability = AdminPaths.loadCapabilities h s.capability := by
    simp only [AdminPaths.loadCapabilities, hdiff.readText_eq htable]
  simp only [AdminPaths.load, htrusted, hpolicy, hcapabilities]

end DiffersInProc
end Host
end ContainerLaunch
