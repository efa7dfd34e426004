import ContainerLaunch.Launch.RunningInstance
import ContainerLaunch.Proofs.Launch.Shared
import ContainerLaunch.Proofs.Namespaces
/-!
# Joining an instance, step by step

What a launch finds out about an instance before it enters it, what it takes over
from it, and what it leaves on the host.  All but the last step are quiet; the
last one may put the launcher's parent into the control group of the instance.
-/

namespace ContainerLaunch

namespace Host

variable {h h' : Host}

/-- Writing a file puts one file into the tree and changes nothing else. -/
theorem writing_ok {p : Path} {content : ByteArray} (hwrite : h.writing p content = .ok h') :
    ∃ place inode, h.resolve true p = .ok place ∧ inode.node = .file content ∧
      h' = { h with tree := h.tree.put place inode } := by
  unfold writing at hwrite
  cases hplace : h.resolve true p with
  | error cause => simp [hplace, Bind.bind, Except.bind] at hwrite
  | ok place =>
      simp only [hplace, Bind.bind, Except.bind] at hwrite
      split at hwrite
      · contradiction
      · split at hwrite
        · cases hwrite
          exact ⟨place, _, rfl, rfl, rfl⟩
        · next inode hinode =>
          split at hwrite
          · contradiction
          · cases hwrite
            exact ⟨place, _, rfl, rfl, rfl⟩

end Host

/-! ## Control groups -/

namespace Cgroup

variable {processRoot root : Path} {pid : Int32} {member : Nat} {h h' : Host}

theorem perform_join (processRoot root : Path) (pid : Int32) (member : Nat) (h : Host) :
    (join processRoot root pid member).perform h =
      match h.readText (groupFile processRoot pid) with
      | .error cause => (.error (.atPath (groupFile processRoot pid) cause), h)
      | .ok content =>
        match unifiedPath content with
        | none => (.error (.unavailable "cgroup v2"
            s!"no unified hierarchy entry in {groupFile processRoot pid}"), h)
        | some group =>
          match h.writing (membersFile root group) (Text.octets (toString member)) with
          | .error cause => (.error (.atPath (membersFile root group) cause), h)
          | .ok written => (.ok (), written) := by
  simp only [join, Action.readText, Action.check, bind_assoc, Action.perform_observe_bind]
  cases h.readText (groupFile processRoot pid) with
  | error cause => rfl
  | ok content =>
      cases hgroup : unifiedPath content with
      | none => simp [hgroup, Action.perform_fail]
      | some group =>
          simp only [hgroup, Action.writeFile, pure_bind, Action.perform_change]
          cases h.writing (membersFile root group) (Text.octets (toString member)) with
          | error cause => rfl
          | ok written => rfl

/-- A process is put into a group by one write. -/
theorem join_ok :
    (join processRoot root pid member).perform h = (.ok (), h') ↔
      ∃ content group, h.readText (groupFile processRoot pid) = .ok content ∧
        unifiedPath content = some group ∧
        h.writing (membersFile root group) (Text.octets (toString member)) = .ok h' := by
  rw [perform_join]
  cases hread : h.readText (groupFile processRoot pid) with
  | error cause => simp
  | ok content =>
      cases hgroup : unifiedPath content with
      | none => simp [hgroup]
      | some group =>
          simp only [hgroup, Except.ok.injEq, exists_and_left, Option.some.injEq,
            exists_eq_left']
          cases h.writing (membersFile root group) (Text.octets (toString member)) with
          | error cause => simp
          | ok written => simp

/-- Where a process is not put into a group the host stays as it is. -/
theorem join_error {e : Error}
    (hrun : (join processRoot root pid member).perform h = (.error e, h')) : h' = h := by
  rw [perform_join] at hrun
  split at hrun
  · exact (congrArg Prod.snd hrun).symm
  · split at hrun
    · exact (congrArg Prod.snd hrun).symm
    · split at hrun
      · exact (congrArg Prod.snd hrun).symm
      · cases congrArg Prod.fst hrun

end Cgroup

namespace Draft

variable {l : Launcher} {policy : AdminFiles} {d d' : Draft} {h h' : Host}

/-! ## The process of the instance -/

theorem quiet_openProcess (caller : Caller) (r : InstanceRecord) (enforced : Bool) :
    Action.Quiet (openProcess caller r enforced) := by
  refine Action.quiet_bind (Action.quiet_openFile _ _) fun directory => ?_
  refine Action.quiet_bind (Action.quiet_observe _) fun h => ?_
  exact Action.quiet_when (Action.quiet_ofExcept _) (Action.quiet_pure _)

theorem openProcess_ok {caller : Caller} {r : InstanceRecord} {enforced : Bool}
    {directory : OpenFile} :
    (openProcess caller r enforced).perform h = (.ok directory, h') ↔
      (Action.openFile .directory (processPath r.pid)).perform h = (.ok directory, h') ∧
        (enforced = true → InstanceProof.checkAll (.ofDirectory h' directory.place)
          ⟨caller.uid, caller.gid, r.ppid⟩ = .ok ()) := by
  unfold openProcess
  rw [Action.perform_bind_ok]
  constructor
  · rintro ⟨opened, h₁, hopen, hrest⟩
    rw [Action.perform_observe_bind] at hrest
    obtain ⟨h₂, hproofs, hopened⟩ := Action.perform_when_ok.mp hrest
    obtain ⟨rfl, rfl⟩ := Action.perform_pure_ok.mp hopened
    cases enforced with
    | false =>
        obtain ⟨-, rfl⟩ := Action.perform_pure_ok.mp hproofs
        exact ⟨hopen, by simp⟩
    | true =>
        obtain ⟨hgiven, rfl⟩ := Action.perform_ofExcept_ok.mp hproofs
        exact ⟨hopen, fun _ => hgiven⟩
  · rintro ⟨hopen, hproofs⟩
    refine ⟨directory, h', hopen, ?_⟩
    rw [Action.perform_observe_bind]
    refine Action.perform_when_ok.mpr ⟨h', ?_, rfl⟩
    cases enforced with
    | false => rfl
    | true => exact Action.perform_ofExcept_ok.mpr ⟨hproofs rfl, rfl⟩

/-! ## What is taken over from the instance -/

/-- A draft that enters the namespaces of a process through its directory, which
is kept. -/
def inProcess (d : Draft) (directory : OpenFile) (namespaces : NamespaceList) : Draft :=
  let kept := d.holding [directory]
  { kept with
    plan := ({ kept.plan with
      workingDirectoryFd := some (descriptor directory)
      imageFd := some (descriptor directory)
      joinOnly := true } : Plan).withJoins namespaces.relativeToProcess
    config := { d.config with namespaces := namespaces.relativeToProcess } }

theorem enterProcess_ok {directory : OpenFile} {namespaces : NamespaceList} :
    d.enterProcess directory namespaces = .ok d' ↔
      d.plan.keptDescriptors.length < Plan.maxKept ∧
        d.inProcess directory namespaces = d' := by
  simp only [enterProcess, Error.bind_eq_ok, keepFile_ok]
  constructor
  · rintro ⟨_, ⟨hroom, rfl⟩, hd⟩
    cases hd
    exact ⟨hroom, rfl⟩
  · rintro ⟨hroom, rfl⟩
    exact ⟨_, ⟨hroom, rfl⟩, rfl⟩

/-- What a launch has found out about an instance before it takes anything over. -/
structure Examined (l : Launcher) (h : Host) (c : LaunchConfig) (record : InstanceRecord)
    (enforced : Bool) (directory : OpenFile) (h' : Host) (original : LaunchConfig) : Prop where
  record_loaded : InstanceRecord.load h (recordPath h l.facts.caller c) = .ok record
  privileged : record.checkJoin l.facts.caller.uid l.facts.isSuid = .ok enforced
  directory_opened :
    (Action.openFile .directory (processPath record.pid)).perform h = (.ok directory, h')
  proofs_given : enforced = true → InstanceProof.checkAll (.ofDirectory h' directory.place)
    ⟨l.facts.caller.uid, l.facts.caller.gid, record.ppid⟩ = .ok ()
  config_read : instanceConfig record = .ok original

/-- A draft in a process, with the capabilities of the instance asked for again. -/
def asking (d : Draft) (directory : OpenFile) (original : LaunchConfig) : Draft :=
  (d.inProcess directory original.namespaces).restoreCapabilities original

/-- What is granted to a launch that joins an instance. -/
def joinGrant (l : Launcher) (policy : AdminFiles) (d : Draft) (enforced : Bool)
    (directory : OpenFile) (original : LaunchConfig) : Grant :=
  grant policy l.facts.caller enforced
    (capabilityRequest (d.asking directory original).config false)

/-- A draft that has taken over everything from an instance but its privileges. -/
def takingOver (d : Draft) (l : Launcher) (policy : AdminFiles) (enforced : Bool)
    (directory : OpenFile) (original : LaunchConfig) (seccomp : Option Json) (users : Directory) :
    Draft :=
  (((((d.asking directory original).granted
    (joinGrant l policy d enforced directory original)).restoreUser original).secured
      seccomp).restoreConfinement original).withUser
    (ContainerUser.describe users l.facts.caller none)

/-! ## All steps but the last -/

/-- The steps of joining an instance before the control group is entered. -/
def takeOver (l : Launcher) (policy : AdminFiles) (d : Draft) :
    Action (InstanceRecord × LaunchConfig × Draft) := do
  let caller := l.facts.caller
  let h ← Action.observe id
  let record ← Action.ofExcept (InstanceRecord.load h (recordPath h caller d.config))
  let enforced ← Action.ofExcept (record.checkJoin caller.uid l.facts.isSuid)
  let directory ← openProcess caller record enforced
  let original ← Action.ofExcept (instanceConfig record)
  let d ← Action.ofExcept (d.enterProcess directory original.namespaces)
  let d ← (d.restoreCapabilities original).withCapabilities policy caller enforced false
  let d ← (d.restoreUser original).withSecurity
  let d ← (d.restoreConfinement original).withUserInfo caller false
  return (record, original, d)

theorem join_eq (l : Launcher) (policy : AdminFiles) (d : Draft) :
    d.join l policy = (do
      let r ← d.takeOver l policy
      enterCgroup r.1
      return r.2.2.restorePrivileges l.facts.caller r.2.1) := by
  simp only [join, takeOver, bind_assoc, pure_bind]

theorem quiet_takeOver (l : Launcher) (policy : AdminFiles) (d : Draft) :
    Action.Quiet (d.takeOver l policy) := by
  refine Action.quiet_bind (Action.quiet_observe _) fun h => ?_
  refine Action.quiet_bind (Action.quiet_ofExcept _) fun record => ?_
  refine Action.quiet_bind (Action.quiet_ofExcept _) fun enforced => ?_
  refine Action.quiet_bind (quiet_openProcess _ _ _) fun directory => ?_
  refine Action.quiet_bind (Action.quiet_ofExcept _) fun original => ?_
  refine Action.quiet_bind (Action.quiet_ofExcept _) fun d => ?_
  refine Action.quiet_bind (quiet_withCapabilities _ _ _ _ _) fun d => ?_
  refine Action.quiet_bind (quiet_withSecurity _) fun d => ?_
  exact Action.quiet_bind (quiet_withUserInfo _ _ _) fun d => Action.quiet_pure _

/-- What is taken over from an instance, once it has been examined. -/
theorem takeOver_ok {record : InstanceRecord} {original : LaunchConfig}
    (hrun : (d.takeOver l policy).perform h = (.ok (record, original, d'), h')) :
    ∃ enforced directory h₁ seccomp,
      Examined l h d.config record enforced directory h₁ original ∧
        h' = h₁.tellAll (joinGrant l policy d enforced directory original).notices ∧
        seccompOption h' d.config = .ok seccomp ∧
        d.takingOver l policy enforced directory original seccomp h'.users = d' := by
  simp only [takeOver, Action.perform_observe_bind, Action.perform_ofExcept_bind_ok, id] at hrun
  obtain ⟨loaded, hloaded, enforced, henforced, hrun⟩ := hrun
  obtain ⟨directory, h₁, hdirectory, hrun⟩ := Action.perform_bind_ok.mp hrun
  simp only [Action.perform_ofExcept_bind_ok] at hrun
  obtain ⟨from_, hfrom, d₁, hentered, hrun⟩ := hrun
  obtain ⟨-, rfl⟩ := enterProcess_ok.mp hentered
  obtain ⟨d₂, h₂, hcaps, hrun⟩ := Action.perform_bind_ok.mp hrun
  rw [perform_withCapabilities] at hcaps
  cases hcaps
  obtain ⟨d₃, h₃, hsecurity, hrun⟩ := Action.perform_bind_ok.mp hrun
  obtain ⟨seccomp, hseccomp, rfl, rfl⟩ := withSecurity_ok.mp hsecurity
  obtain ⟨d₄, h₄, huser, hrun⟩ := Action.perform_bind_ok.mp hrun
  rw [perform_withUserInfo] at huser
  cases huser
  obtain ⟨hd, rfl⟩ := Action.perform_pure_ok.mp hrun
  cases hd
  obtain ⟨hopened, hproofs⟩ := openProcess_ok.mp hdirectory
  refine ⟨enforced, directory, h₁, seccomp, ?_, rfl, ?_, rfl⟩
  · exact
      { record_loaded := hloaded
        privileged := henforced
        directory_opened := hopened
        proofs_given := hproofs
        config_read := hfrom }
  · exact hseccomp

/-! ## What the draft then has -/

/-- The plan of a joined instance: the directory of its process is kept, is the working
directory and the image, and leads to the namespaces; a fake superuser stays one. -/
def joinPlan (d : Draft) (directory : OpenFile) (original : LaunchConfig) : Plan :=
  { d.plan with
    joinOnly := true
    keptDescriptors := d.plan.keptDescriptors ++ [descriptor directory]
    workingDirectoryFd := some (descriptor directory)
    imageFd := some (descriptor directory)
    joinPaths := fun k =>
      (original.namespaces.relativeToProcess.lastPath k).or (d.plan.joinPaths k)
    targetUid := if original.fakeroot then 0 else d.plan.targetUid
    targetGids := if original.fakeroot then [0] else d.plan.targetGids }

section TakingOver

variable {enforced : Bool} {directory : OpenFile} {original : LaunchConfig}
  {seccomp : Option Json} {users : Directory}

theorem takingOver_images :
    (d.takingOver l policy enforced directory original seccomp users).images = d.images := by
  simp only [takingOver, withUser, restoreConfinement, secured, restoreUser, granted, asking,
    restoreCapabilities, inProcess, holding, keeping]

theorem takingOver_imageList :
    (d.takingOver l policy enforced directory original seccomp users).config.imageList =
      d.config.imageList := by
  simp only [takingOver, withUser, restoreConfinement, secured, restoreUser, granted, asking,
    restoreCapabilities, inProcess]

theorem takingOver_fuseMounts :
    (d.takingOver l policy enforced directory original seccomp users).config.fuseMounts =
      d.config.fuseMounts := by
  simp only [takingOver, withUser, restoreConfinement, secured, restoreUser, granted, asking,
    restoreCapabilities, inProcess]

theorem takingOver_plan :
    (d.takingOver l policy enforced directory original seccomp users).plan =
      d.joinPlan directory original := by
  have hplan : (d.takingOver l policy enforced directory original seccomp users).plan =
      if original.fakeroot then
        { (d.inProcess directory original.namespaces).plan with targetUid := 0, targetGids := [0] }
      else (d.inProcess directory original.namespaces).plan := rfl
  rw [hplan, inProcess, Plan.withJoins_eq, funext (Plan.joinPaths_withJoins _ _), joinPlan]
  cases original.fakeroot <;> rfl

/-- A joined instance keeps its directory, and nothing else of its own. -/
theorem takingOver_keptDescriptors :
    (d.takingOver l policy enforced directory original seccomp users).plan.keptDescriptors =
      d.plan.keptDescriptors ++ [descriptor directory] := by
  rw [takingOver_plan, joinPlan]

theorem takingOver_capabilities :
    (d.takingOver l policy enforced directory original seccomp users).config.process.capabilities =
      .uniform (joinGrant l policy d enforced directory original).set :=
  rfl

/-- Restoring the privileges changes one field of the process. -/
theorem restorePrivileges_eq (d : Draft) (caller : Caller) (original : LaunchConfig) :
    d.restorePrivileges caller original = { d with
      config := { d.config with
        process := { d.config.process with
          noNewPrivileges :=
            if caller.isSuperuser then original.process.noNewPrivileges else true } } } :=
  rfl

theorem asking_request :
    capabilityRequest (d.asking directory original).config false =
      { capabilityRequest d.config false with
        existing := original.process.capabilities.permitted } := by
  simp only [capabilityRequest, Bool.false_and]
  rfl

end TakingOver

/-! ## The control group of the instance -/

/-- The file that tells the members of the group of an instance, with the number of
the launcher's parent in it. -/
structure MembersFile (r : InstanceRecord) (h : Host) (place : Place) (inode : Inode) : Prop where
  has_group : r.cgroup = true
  place_eq : ∃ content group,
    h.readText (Cgroup.groupFile Cgroup.processRoot r.pid) = .ok content ∧
      Cgroup.unifiedPath content = some group ∧
      h.resolve true (Cgroup.membersFile Cgroup.root group) = .ok place
  node_eq : inode.node = .file (Text.octets (toString h.process.parent.toInt.natAbs))

theorem enterCgroup_ok {r : InstanceRecord} (hrun : (enterCgroup r).perform h = (.ok (), h')) :
    (r.cgroup = false ∧ h' = h) ∨
      ∃ place inode, MembersFile r h place inode ∧
        h' = { h with tree := h.tree.put place inode } := by
  unfold enterCgroup at hrun
  by_cases hgroup : r.cgroup = true
  · rw [if_pos hgroup, Action.perform_observe_bind] at hrun
    obtain ⟨content, group, hcontent, hpath, hwrite⟩ := Cgroup.join_ok.mp hrun
    obtain ⟨place, inode, hplace, hnode, rfl⟩ := Host.writing_ok hwrite
    exact Or.inr ⟨place, inode, ⟨hgroup, ⟨content, group, hcontent, hpath, hplace⟩, hnode⟩, rfl⟩
  · rw [if_neg hgroup] at hrun
    exact Or.inl ⟨Bool.eq_false_iff.mpr hgroup, (Action.perform_pure_ok.mp hrun).2.symm⟩

theorem enterCgroup_error {r : InstanceRecord} {e : Error}
    (hrun : (enterCgroup r).perform h = (.error e, h')) : h' = h := by
  unfold enterCgroup at hrun
  by_cases hgroup : r.cgroup = true
  · rw [if_pos hgroup, Action.perform_observe_bind] at hrun
    exact Cgroup.join_error hrun
  · rw [if_neg hgroup] at hrun
    cases hrun

/-! ## The whole step -/

theorem join_ok :
    (d.join l policy).perform h = (.ok d', h') ↔
      ∃ record original d₁ h₁,
        (d.takeOver l policy).perform h = (.ok (record, original, d₁), h₁) ∧
          (enterCgroup record).perform h₁ = (.ok (), h') ∧
          d₁.restorePrivileges l.facts.caller original = d' := by
  rw [join_eq]
  simp only [Action.perform_bind_ok, Action.perform_pure_ok]
  constructor
  · rintro ⟨⟨record, original, d₁⟩, h₁, htake, _, h₂, henter, hd, rfl⟩
    exact ⟨record, original, d₁, h₁, htake, henter, hd⟩
  · rintro ⟨record, original, d₁, h₁, htake, henter, hd⟩
    exact ⟨(record, original, d₁), h₁, htake, (), h', henter, hd, rfl⟩

/-- Joining an instance that fails leaves nothing behind: the control group is
entered last. -/
theorem join_error {e : Error} (hrun : (d.join l policy).perform h = (.error e, h')) :
    h'.lasting = h.lasting := by
  rw [join_eq, Action.perform_bind] at hrun
  cases htake : (d.takeOver l policy).perform h with
  | mk r h₁ =>
      have hlast : h₁.lasting = h.lasting := (quiet_takeOver l policy d).lasting_eq htake
      rw [htake] at hrun
      cases r with
      | error e₁ =>
          cases hrun
          exact hlast
      | ok taken =>
          simp only [Action.perform_bind] at hrun
          cases henter : (enterCgroup taken.1).perform h₁ with
          | mk r₂ h₂ =>
              rw [henter] at hrun
              cases r₂ with
              | error e₂ =>
                  cases hrun
                  rw [enterCgroup_error henter]
                  exact hlast
              | ok u =>
                  exact absurd (congrArg Prod.fst hrun) (by simp [Action.perform_pure])

end Draft
end ContainerLaunch
