import ContainerLaunch.Proofs.Detours
import ContainerLaunch.Proofs.Launch.Preparation
/-!
# Where a join writes

A process is put into a group by writing one file, the members of the group, which is looked
for on the path of the group from the root of the hierarchy.  Slashes at the start of that
path do not lead away from the root, but steps up in it do: they are taken like any others.
So the file lies in the hierarchy exactly if the path comes down again by the names that it
has left.
-/

namespace ContainerLaunch.Cgroup

variable {processRoot root : Path} {pid : Int32} {member : Nat} {h h' : Host} {group : String}
  {base place : Place} {result : Except Error Unit}

/-! ## The path of a group -/

/-- The steps that the path of a group asks for. -/
def steps (group : String) : List Step :=
  Step.ofPieces ⟨group⟩

/-- Where the path of a group leads, as seen from the root of the hierarchy. -/
def detour (group : String) : Detour :=
  .ofSteps (steps group)

/-- The steps from the root of the hierarchy to the members of a group. -/
def stepsToMembers (group : String) : List Step :=
  steps group ++ [.enter "cgroup.procs"]

/-- Slashes at the start of the path of a group do not count. -/
theorem ofPieces_withoutSlashes (group : String) :
    Step.ofPieces ⟨withoutSlashes group⟩ = steps group := by
  rw [steps, Step.ofPieces, Step.ofPieces, Text.pieces, Text.pieces, withoutSlashes,
    String.toList_ofList]
  induction group.toList with
  | nil => rfl
  | cons c rest ih =>
      by_cases hslash : c = '/'
      · subst hslash
        rw [List.dropWhile_cons_of_pos (by simp), ih, Text.piecesOf, if_pos rfl, List.map_cons,
          List.filterMap_cons_none rfl]
      · rw [List.dropWhile_cons_of_neg (by simpa using hslash)]

theorem isAbsolute_withoutSlashes (group : String) :
    (⟨withoutSlashes group⟩ : Path).isAbsolute = false := by
  rw [Path.isAbsolute, withoutSlashes, String.toList_ofList, beq_eq_false_iff_ne]
  intro hslash
  have hkept := List.head?_dropWhile_not (· == '/') group.toList
  rw [hslash] at hkept
  cases hkept

theorem ofPath_membersFile (root : Path) (group : String) :
    Step.ofPath (membersFile root group) = Step.ofPieces root ++ stepsToMembers group := by
  have hmembers : (⟨"cgroup.procs"⟩ : Path).isAbsolute = false := rfl
  have hslash : (membersFile root group).text.toList.getLast? ≠ some '/' := by
    by_cases hgroup : (root.join ⟨withoutSlashes group⟩).text = ""
    · rw [membersFile, Path.join_of_empty hgroup]
      decide
    · obtain ⟨cs, hjoin, -⟩ := Path.exists_text_join hmembers hgroup
      rw [membersFile, hjoin, List.getLast?_append_cons]
      decide
  rw [Step.ofPath_eq_ofPieces hslash, membersFile, Path.ofPieces_join hmembers,
    Path.ofPieces_join (isAbsolute_withoutSlashes group), ofPieces_withoutSlashes,
    List.append_assoc]
  rfl

/-- The members of a group are looked for from the root of the hierarchy. -/
theorem exists_walk_membersFile (hplace : h.resolve true (membersFile root group) = .ok place) :
    ∃ base links, h.LooksFrom root base ∧
      Walk.go h.look true links base (stepsToMembers group) = .ok place := by
  have hgroup := isAbsolute_withoutSlashes group
  refine Host.exists_walk_of_isPrefix ?_ (ofPath_membersFile root group) (by simp [stepsToMembers])
    ?_ hplace
  · exact (Path.isPrefix_join hgroup).trans (Path.isPrefix_join rfl)
  · intro hroot
    rw [membersFile, Path.join_of_empty hroot]
    exact Path.isAbsolute_join rfl hgroup

/-- Where there is no link on the way, the path of a group tells where its members are. -/
theorem members_of_unlinked {links : Nat}
    (hunlinked : Walk.Unlinked h.look base (stepsToMembers group))
    (hwalk : Walk.go h.look true links base (stepsToMembers group) = .ok place) :
    place = (detour group).target base ++ ["cgroup.procs"] := by
  rw [Walk.go_of_unlinked hunlinked hwalk, stepsToMembers, List.foldl_append, detour,
    Detour.target_ofSteps]
  rfl

/-- The members of a group are below a place if the path of the group comes down again by the
names that it has left. -/
theorem exists_names_iff :
    (∃ names, (detour group).target base ++ ["cgroup.procs"] = base ++ names ++ ["cgroup.procs"]) ↔
      (detour group).left base <+: (detour group).down := by
  rw [← Detour.isUnder_target_iff]
  simp only [List.append_cancel_right_eq, List.prefix_iff_exists_eq_append]

/-! ## What a join writes -/

/-- The number of a member is written to one file, and nothing else is changed. -/
structure Written (h h' : Host) (member : Nat) (place : Place) : Prop where
  members : ∃ inode, h'.tree.find? place = some inode ∧
    inode.node = .file (Text.octets (toString member))
  others : ∀ other, other ≠ place → h'.tree.find? other = h.tree.find? other
  rest : { h' with tree := h.tree } = h

theorem written_of_writing {p : Path}
    (hwrite : h.writing p (Text.octets (toString member)) = .ok h') :
    ∃ place, h.resolve true p = .ok place ∧ Written h h' member place := by
  obtain ⟨place, inode, hplace, hnode, rfl⟩ := Host.writing_ok hwrite
  exact ⟨place, hplace,
    { members := ⟨inode, Tree.find?_put_self _ _ _, hnode⟩
      others := fun _ hother => Tree.find?_put_of_ne _ _ hother
      rest := rfl }⟩

/-- A join succeeds exactly if the group of the process is found and its members can be written. -/
theorem result_ok_iff (hrun : (join processRoot root pid member).perform h = (result, h')) :
    result = .ok () ↔ ∃ content group written,
      h.readText (groupFile processRoot pid) = .ok content ∧ unifiedPath content = some group ∧
        h.writing (membersFile root group) (Text.octets (toString member)) = .ok written := by
  constructor
  · rintro rfl
    obtain ⟨content, group, hfound⟩ := join_ok.mp hrun
    exact ⟨content, group, h', hfound⟩
  · rintro ⟨content, group, written, hfound⟩
    have hok := join_ok.mpr ⟨content, group, hfound⟩
    rw [hrun] at hok
    exact congrArg Prod.fst hok

/-- A join succeeds exactly if the group of the process is found and its members can be written;
one that fails changes nothing.  One that succeeds writes the number of the member, in
decimal, to one file and changes nothing else: to the members of the group, on the path of the
group from the root of the hierarchy.  Unless there is a link on that path the file is one
called `cgroup.procs`, and it lies in the hierarchy exactly if the path comes down again by the
names of the root that it has gone up; so it does if it never goes up. -/
theorem join_writes_members
    (hrun : (join processRoot root pid member).perform h = (result, h')) :
    (result = .ok () ↔ ∃ content group written,
        h.readText (groupFile processRoot pid) = .ok content ∧
          unifiedPath content = some group ∧
          h.writing (membersFile root group) (Text.octets (toString member)) = .ok written) ∧
      (∀ e, result = .error e → h' = h) ∧
      (result = .ok () → ∃ content group base place,
        h.readText (groupFile processRoot pid) = .ok content ∧
          unifiedPath content = some group ∧ h.LooksFrom root base ∧
          h.resolve true (membersFile root group) = .ok place ∧ Written h h' member place ∧
          (Walk.Unlinked h.look base (stepsToMembers group) →
            place = (detour group).target base ++ ["cgroup.procs"] ∧
              ((∃ names, place = base ++ names ++ ["cgroup.procs"]) ↔
                (detour group).left base <+: (detour group).down) ∧
              (.up ∉ steps group → ∃ names, place = base ++ names ++ ["cgroup.procs"]))) := by
  refine ⟨result_ok_iff hrun, ?_, ?_⟩
  · rintro e rfl
    exact join_error hrun
  · rintro rfl
    obtain ⟨content, group, hcontent, hgroup, hwrite⟩ := join_ok.mp hrun
    obtain ⟨place, hplace, hwritten⟩ := written_of_writing hwrite
    obtain ⟨base, links, hbase, hwalk⟩ := exists_walk_membersFile hplace
    refine ⟨content, group, base, place, hcontent, hgroup, hbase, hplace, hwritten, ?_⟩
    intro hunlinked
    obtain rfl := members_of_unlinked hunlinked hwalk
    refine ⟨rfl, exists_names_iff, fun hup => exists_names_iff.mpr ?_⟩
    rw [detour, Detour.left_ofSteps hup]
    exact List.nil_prefix

/-- A host with a hierarchy and a directory next to it, and a process in a group. -/
def hostInGroup (group : String) : Host :=
  .plain ⟨0, 0, 0, []⟩
    [["proc"], ["proc", "42"], ["groups"], ["groups", "web"], ["outside"]]
    [(["proc", "42", "cgroup"], "0::" ++ group ++ "\n")]

/-- The path of the group leaves the hierarchy and comes back to it. -/
theorem join_writes_members_back :
    ∃ h' place, (join ⟨"/proc"⟩ ⟨"/groups"⟩ 42 777).perform (hostInGroup "/../groups/web") =
        (.ok (), h') ∧
      Written (hostInGroup "/../groups/web") h' 777 place ∧
      ∃ names, place = ["groups"] ++ names ++ ["cgroup.procs"] := by
  obtain ⟨⟨⟩, h', hrun, -⟩ := Action.exists_perform_ok (f := fun _ => ()) (b := ())
    (a := join ⟨"/proc"⟩ ⟨"/groups"⟩ 42 777) (h := hostInGroup "/../groups/web")
    (by decide +kernel)
  obtain ⟨content, group, base, place, hcontent, hgroup, hbase, -, hwritten, hunlinked⟩ :=
    (join_writes_members hrun).2.2 rfl
  have hread : (hostInGroup "/../groups/web").readText (groupFile ⟨"/proc"⟩ 42) =
      .ok "0::/../groups/web\n" := by decide +kernel
  obtain rfl := Except.ok.inj (hread.symm.trans hcontent)
  have hfound : unifiedPath "0::/../groups/web\n" = some "/../groups/web" := by decide +kernel
  obtain rfl := Option.some.inj (hfound.symm.trans hgroup)
  have hroot : (hostInGroup "/../groups/web").resolve true ⟨"/groups"⟩ = .ok ["groups"] := by
    decide +kernel
  rcases hbase with hbase | ⟨hempty, -⟩
  · obtain rfl := Except.ok.inj (hroot.symm.trans hbase)
    obtain ⟨-, hbelow, -⟩ := hunlinked (by decide +kernel)
    exact ⟨h', place, hrun, hwritten, hbelow.mpr (by decide +kernel)⟩
  · exact absurd hempty (by decide)

/-- The path of the group leaves the hierarchy, and the members are written outside of it. -/
theorem members_written_outside :
    ∃ h', (join ⟨"/proc"⟩ ⟨"/groups"⟩ 42 777).perform (hostInGroup "/../outside") =
        (.ok (), h') ∧
      (hostInGroup "/../outside").resolve true ⟨"/groups"⟩ = .ok ["groups"] ∧
      (hostInGroup "/../outside").tree.find? ["outside", "cgroup.procs"] = none ∧
      h'.tree.find? ["outside", "cgroup.procs"] =
        some ⟨.file (Text.octets "777"), 0, 0, false⟩ ∧
      ¬ (["groups"] : Place) <+: ["outside", "cgroup.procs"] := by
  have hrun : ((join ⟨"/proc"⟩ ⟨"/groups"⟩ 42 777).perform (hostInGroup "/../outside")).1 =
      .ok () := by decide +kernel
  have hmembers : ((join ⟨"/proc"⟩ ⟨"/groups"⟩ 42 777).perform
      (hostInGroup "/../outside")).2.tree.find? ["outside", "cgroup.procs"] =
        some ⟨.file (Text.octets "777"), 0, 0, false⟩ := by decide +kernel
  exact ⟨_, by rw [← hrun], by decide +kernel, by decide +kernel, hmembers, by decide⟩

end ContainerLaunch.Cgroup
