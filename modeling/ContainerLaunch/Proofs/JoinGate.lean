import ContainerLaunch.Proofs.Footprint
import ContainerLaunch.Proofs.InstanceProofs
import ContainerLaunch.Proofs.TrustedInputs
/-!
# The gate before an instance

A launch that joins an instance passes a gate.  It has to be privileged exactly if the
caller is not the superuser and the instance has no user namespace of its own, the two
process numbers of the record have to be above 1, and a privileged launch asks the process
for its proofs.  The first two conditions are looked at before anything below `/proc` is,
so whoever is turned away there is turned away whatever the processes of the host show.
-/

namespace ContainerLaunch

/-! ## Records -/

namespace InstanceRecord

variable {r : InstanceRecord} {uid : UInt32} {isSuid enforced : Bool}

/-- A launch is privileged exactly if joining the instance asks for that. -/
def Suits (r : InstanceRecord) (uid : UInt32) (isSuid : Bool) : Prop :=
  isSuid = true ↔ uid ≠ 0 ∧ r.userNamespace = false

/-- Both process numbers of a record are such as an instance can have. -/
def Plausible (r : InstanceRecord) : Prop :=
  1 < r.pid ∧ 1 < r.ppid

/-- How a launch is refused that is privileged and should not be, or the other way round. -/
def mismatch (isSuid : Bool) : Error :=
  .privilegeMismatch <|
    if isSuid then "joining user namespace with suid workflow is not allowed"
    else "a setuid installation is required to join this instance"

/-- How a record with process numbers that no instance has is refused. -/
def badNumber : Error :=
  .instanceIntegrity "bad instance process ID found"

theorem needsSuid_iff : r.needsSuid uid = true ↔ uid ≠ 0 ∧ r.userNamespace = false := by
  simp [needsSuid]

theorem suits_iff : r.Suits uid isSuid ↔ isSuid = r.needsSuid uid := by
  rw [Suits, ← needsSuid_iff]
  exact Bool.eq_iff_iff.symm

theorem not_plausible_iff : ¬ r.Plausible ↔ r.pid ≤ 1 ∨ r.ppid ≤ 1 := by
  rw [Plausible, not_and_or, Int32.not_lt, Int32.not_lt]

/-- A launch is let through if it suits the instance and the numbers are plausible. -/
theorem checkJoin_ok :
    r.checkJoin uid isSuid = .ok enforced ↔
      r.Suits uid isSuid ∧ r.Plausible ∧ enforced = isSuid := by
  rw [suits_iff]
  by_cases hbad : r.pid ≤ 1 ∨ r.ppid ≤ 1
  · have hnot : ¬ r.Plausible := not_plausible_iff.mpr hbad
    cases isSuid <;> cases hneeds : r.needsSuid uid <;> simp [checkJoin, hneeds, hbad, hnot]
  · have hgood : r.Plausible := not_not.mp fun hnot => hbad (not_plausible_iff.mp hnot)
    cases isSuid <;> cases hneeds : r.needsSuid uid <;>
      simp [checkJoin, hneeds, hbad, hgood, @eq_comm Bool _ enforced]

theorem checkJoin_of_not_suits (hnot : ¬ r.Suits uid isSuid) :
    r.checkJoin uid isSuid = .error (mismatch isSuid) := by
  rw [suits_iff] at hnot
  cases isSuid <;> cases hneeds : r.needsSuid uid <;> simp_all [checkJoin, mismatch]

theorem checkJoin_of_not_plausible (hsuits : r.Suits uid isSuid) (hnot : ¬ r.Plausible) :
    r.checkJoin uid isSuid = .error badNumber := by
  rw [suits_iff] at hsuits
  have hbad := not_plausible_iff.mp hnot
  cases isSuid <;> simp [checkJoin, ← hsuits, hbad, badNumber]

/-- Whatever the gate does not let through is refused. -/
theorem checkJoin_error (hnot : ¬ (r.Suits uid isSuid ∧ r.Plausible)) :
    ∃ e, r.checkJoin uid isSuid = .error e := by
  by_cases hsuits : r.Suits uid isSuid
  · exact ⟨_, checkJoin_of_not_plausible hsuits fun hgood => hnot ⟨hsuits, hgood⟩⟩
  · exact ⟨_, checkJoin_of_not_suits hsuits⟩

end InstanceRecord

namespace Draft

variable {l : Launcher} {policy : AdminFiles} {d : Draft} {h : Host} {e : Error}

/-- A record that cannot be had ends the launch. -/
theorem perform_join_of_load_error
    (hload : InstanceRecord.load h (recordPath h l.facts.caller d.config) = .error e) :
    (d.join l policy).perform h = (.error e, h) := by
  simp only [join, Action.perform_observe_bind, id]
  rw [Action.perform_bind, Action.perform_ofExcept, hload]

/-- A record that is refused ends the launch before its process is looked at. -/
theorem perform_join_of_checkJoin_error {record : InstanceRecord}
    (hload : InstanceRecord.load h (recordPath h l.facts.caller d.config) = .ok record)
    (hcheck : record.checkJoin l.facts.caller.uid l.facts.isSuid = .error e) :
    (d.join l policy).perform h = (.error e, h) := by
  simp only [join, Action.perform_observe_bind, id]
  rw [Action.perform_bind, Action.perform_ofExcept, hload]
  simp only [Action.perform_bind, Action.perform_ofExcept, hcheck]

end Draft

namespace Launcher

variable {l : Launcher} {c : LaunchConfig} {h h' : Host} {r : ReadyLaunch} {files : AdminFiles}
  {record : InstanceRecord} {e : Error}

/-! ## At the gate -/

/-- A launch gets as far as to the gate of an instance with a record. -/
structure AtGate (l : Launcher) (c : LaunchConfig) (h : Host) (record : InstanceRecord) : Prop where
  files_loaded : ∃ files, l.loadPolicy c h = .ok files
  args_given : c.process.args ≠ []
  record_loaded : InstanceRecord.load h (Draft.recordPath h l.facts.caller c) = .ok record

/-- The record with which a launch arrives at the gate, or over what it ends before. -/
def arrival (l : Launcher) (c : LaunchConfig) (h : Host) : Except Error InstanceRecord := do
  let _ ← l.loadPolicy c h
  if c.process.args.isEmpty then .error (.invalid "container process arguments not found")
  else InstanceRecord.load h (Draft.recordPath h l.facts.caller c)

theorem arrival_ok : arrival l c h = .ok record ↔ AtGate l c h record := by
  unfold arrival
  rw [Error.bind_eq_ok]
  constructor
  · rintro ⟨files, hfiles, hrest⟩
    split at hrest
    · cases hrest
    · next hargs => exact ⟨⟨files, hfiles⟩, by simpa using hargs, hrest⟩
  · rintro ⟨⟨files, hfiles⟩, hargs, hload⟩
    exact ⟨files, hfiles, by rw [if_neg (by simpa using hargs), hload]⟩

/-- A launch that does not arrive ends over the administrator's files, over a missing
command, or over the record. -/
theorem arrival_error :
    arrival l c h = .error e ↔
      l.loadPolicy c h = .error e ∨ ∃ files, l.loadPolicy c h = .ok files ∧
        (c.process.args = [] ∧ e = .invalid "container process arguments not found" ∨
          c.process.args ≠ [] ∧
            InstanceRecord.load h (Draft.recordPath h l.facts.caller c) = .error e) := by
  unfold arrival
  cases l.loadPolicy c h with
  | error e₁ => simp [Bind.bind, Except.bind]
  | ok files =>
      by_cases hargs : c.process.args = []
      · simp [Bind.bind, Except.bind, hargs, eq_comm]
      · simp [Bind.bind, Except.bind, hargs]

/-- The gate lets a launch through. -/
def Admits (l : Launcher) (record : InstanceRecord) : Prop :=
  record.Suits l.facts.caller.uid l.facts.isSuid ∧ record.Plausible

/-- A join that fails in its first steps decides what becomes of the launch. -/
theorem result_of_join_error (hjoin : c.instanceJoin.isSome = true)
    (hfiles : l.loadPolicy c h = .ok files) (hargs : c.process.args ≠ [])
    (hfail : ((opening l c h).join l files).perform (opened l c h) = (.error e, opened l c h)) :
    ((l.prepare c).perform h).1 = .error e := by
  have hsome : ¬ c.process.args.isEmpty = true := by simpa using hargs
  rw [result_of_loadPolicy_ok hfiles, perform_prepareWith, if_neg hsome, container_eq_join hjoin,
    Action.perform_bind, hfail]

/-- What is refused at the gate is the result of the launch. -/
theorem AtGate.result_of_checkJoin_error (hgate : AtGate l c h record)
    (hjoin : c.instanceJoin.isSome = true)
    (hcheck : record.checkJoin l.facts.caller.uid l.facts.isSuid = .error e) :
    ((l.prepare c).perform h).1 = .error e := by
  obtain ⟨files, hfiles⟩ := hgate.files_loaded
  have hload := loadRecord_opening.trans hgate.record_loaded
  exact result_of_join_error hjoin hfiles hgate.args_given
    (Draft.perform_join_of_checkJoin_error hload hcheck)

/-- What ends a launch before the gate is the result of it. -/
theorem result_of_arrival_error (hjoin : c.instanceJoin.isSome = true)
    (hend : arrival l c h = .error e) : ((l.prepare c).perform h).1 = .error e := by
  rcases arrival_error.mp hend with hfiles | ⟨files, hfiles, hrest⟩
  · rw [perform_prepare_of_loadPolicy_error hfiles]
  · rcases hrest with ⟨hargs, rfl⟩ | ⟨hargs, hload⟩
    · rw [result_of_loadPolicy_ok hfiles, perform_prepareWith, if_pos (by simp [hargs])]
    · exact result_of_join_error hjoin hfiles hargs
        (Draft.perform_join_of_load_error (loadRecord_opening.trans hload))

/-- A launch that is ready was let through, and if it is privileged, the process that the
record names has given every proof. -/
theorem admitted_of_prepare (hjoin : c.instanceJoin.isSome = true)
    (hrun : (l.prepare c).perform h = (.ok r, h')) :
    ∃ record, AtGate l c h record ∧ l.Admits record ∧
      (l.facts.isSuid = true → ∃ directory h₁,
        (Action.openFile .directory (Draft.processPath record.pid)).perform (opened l c h) =
            (.ok directory, h₁) ∧
          InstanceProof.checkAll (.ofDirectory h₁ directory.place)
            ⟨l.facts.caller.uid, l.facts.caller.gid, record.ppid⟩ = .ok ()) := by
  obtain ⟨files, hfiles, hsteps⟩ := prepare_ok.mp hrun
  have hargs := (prepareWith_ok hsteps).1
  obtain ⟨files', record, original, d₁, h₁, handles, ends, -, htake, -⟩ :=
    prepare_join_ok hjoin hrun
  obtain ⟨enforced, directory, h₂, seccomp, hexamined, -, -, -⟩ := Draft.takeOver_ok htake
  obtain ⟨hsuits, hplausible, rfl⟩ := InstanceRecord.checkJoin_ok.mp hexamined.privileged
  have hload := loadRecord_opening.symm.trans hexamined.record_loaded
  exact ⟨record, ⟨⟨files, hfiles⟩, hargs, hload⟩, ⟨hsuits, hplausible⟩, fun hsuid =>
    ⟨directory, h₂, hexamined.directory_opened, hexamined.proofs_given hsuid⟩⟩

/-! ## Two hosts -/

/-- The launcher with other features of the kernel, some of which are read below `/proc`. -/
def withFeatures (l : Launcher) (f : Features) : Launcher :=
  { l with facts := { l.facts with features := f } }

/-- Neither the record of the instance nor the policy nor the capability table is kept
below `/proc`. -/
structure KeepsOutOfProc (l : Launcher) (c : LaunchConfig) (h : Host) : Prop where
  record : h.Avoids Host.processes (Draft.recordPath h l.facts.caller c)
  config : h.Avoids Host.processes (l.adminPaths c).config
  capability : h.Avoids Host.processes (l.adminPaths c).capability

instance (l : Launcher) (c : LaunchConfig) (h : Host) : Decidable (l.KeepsOutOfProc c h) :=
  decidable_of_iff
    (h.Avoids Host.processes (Draft.recordPath h l.facts.caller c) ∧
      h.Avoids Host.processes (l.adminPaths c).config ∧
      h.Avoids Host.processes (l.adminPaths c).capability)
    ⟨fun ⟨hrecord, hconfig, htable⟩ => ⟨hrecord, hconfig, htable⟩,
      fun ⟨hrecord, hconfig, htable⟩ => ⟨hrecord, hconfig, htable⟩⟩

section TwoHosts

variable {h₂ : Host} {f : Features} (hdiff : h.DiffersInProc h₂) (hkeeps : l.KeepsOutOfProc c h)

include hdiff hkeeps

theorem loadPolicy_eq_of_differsInProc :
    (l.withFeatures f).loadPolicy c h₂ = l.loadPolicy c h := by
  have hload := hdiff.loadFiles_eq hkeeps.config hkeeps.capability l.facts.isSuid
  have hfeatures : (l.withFeatures f).loadPolicy c h₂ = l.loadPolicy c h₂ := rfl
  rw [adminPaths] at hload
  rw [hfeatures, loadPolicy, hload, loadPolicy]

theorem arrival_eq_of_differsInProc :
    arrival (l.withFeatures f) c h₂ = arrival l c h := by
  have hpath : Draft.recordPath h₂ l.facts.caller c = Draft.recordPath h l.facts.caller c := by
    rw [hdiff.rest_eq]
    rfl
  have hload : InstanceRecord.load h₂ (Draft.recordPath h₂ (l.withFeatures f).facts.caller c) =
      InstanceRecord.load h (Draft.recordPath h l.facts.caller c) := by
    rw [← hdiff.loadRecord_eq hkeeps.record, ← hpath]
    rfl
  simp only [arrival, loadPolicy_eq_of_differsInProc hdiff hkeeps, hload]

theorem atGate_iff_of_differsInProc :
    AtGate (l.withFeatures f) c h₂ record ↔ AtGate l c h record := by
  rw [← arrival_ok, arrival_eq_of_differsInProc hdiff hkeeps, arrival_ok]

/-- Whoever is not let through ends in the same way on both hosts. -/
theorem result_eq_of_differsInProc (hjoin : c.instanceJoin.isSome = true)
    (hrefused : ∀ record, AtGate l c h record → ¬ l.Admits record) :
    (((l.withFeatures f).prepare c).perform h₂).1 = ((l.prepare c).perform h).1 := by
  have hsame := arrival_eq_of_differsInProc (f := f) hdiff hkeeps
  cases harrival : arrival l c h with
  | error e =>
      rw [result_of_arrival_error hjoin harrival,
        result_of_arrival_error hjoin (hsame.trans harrival)]
  | ok record =>
      have hgate : AtGate l c h record := arrival_ok.mp harrival
      have hgate₂ : AtGate (l.withFeatures f) c h₂ record := arrival_ok.mp (hsame.trans harrival)
      obtain ⟨e, hcheck⟩ := InstanceRecord.checkJoin_error (hrefused record hgate)
      rw [hgate.result_of_checkJoin_error hjoin hcheck,
        hgate₂.result_of_checkJoin_error hjoin hcheck]

end TwoHosts

/-! ## The gate -/

/-- A launch that has joined an instance is privileged exactly if the caller is not the
superuser and the instance has no user namespace of its own, the process numbers of the
record are above 1, and a privileged launch was given every proof by the process.  At the
gate a launch that does not suit the instance is refused for its privileges, and any other
whose record has a number of at most 1 is refused for the record; where there is no record
yet, the launch ended over what comes before it.  Nothing that differs below `/proc` makes
a difference to whoever is not let through, if the record and the administrator's files are
kept elsewhere. -/
theorem join_gate (hjoin : c.instanceJoin.isSome = true) :
    (∀ r h', (l.prepare c).perform h = (.ok r, h') →
      ∃ record, AtGate l c h record ∧
        (l.facts.isSuid = true ↔ l.facts.caller.uid ≠ 0 ∧ record.userNamespace = false) ∧
        1 < record.pid ∧ 1 < record.ppid ∧
        (l.facts.isSuid = true → ∃ directory h₁,
          (Action.openFile .directory (Draft.processPath record.pid)).perform (opened l c h) =
              (.ok directory, h₁) ∧
            InstanceProof.checkAll (.ofDirectory h₁ directory.place)
              ⟨l.facts.caller.uid, l.facts.caller.gid, record.ppid⟩ = .ok ())) ∧
    (∀ record, AtGate l c h record →
      (¬ record.Suits l.facts.caller.uid l.facts.isSuid →
        ((l.prepare c).perform h).1 = .error (InstanceRecord.mismatch l.facts.isSuid)) ∧
      (record.Suits l.facts.caller.uid l.facts.isSuid → record.pid ≤ 1 ∨ record.ppid ≤ 1 →
        ((l.prepare c).perform h).1 = .error InstanceRecord.badNumber)) ∧
    ((∀ record, ¬ AtGate l c h record) →
      ∃ e, ((l.prepare c).perform h).1 = .error e ∧
        (l.loadPolicy c h = .error e ∨ ∃ files, l.loadPolicy c h = .ok files ∧
          (c.process.args = [] ∧ e = .invalid "container process arguments not found" ∨
            c.process.args ≠ [] ∧
              InstanceRecord.load h (Draft.recordPath h l.facts.caller c) = .error e))) ∧
    (∀ h₂ features, h.DiffersInProc h₂ → l.KeepsOutOfProc c h →
      (∀ record, AtGate (l.withFeatures features) c h₂ record ↔ AtGate l c h record) ∧
      ((∀ record, AtGate l c h record → ¬ l.Admits record) →
        (((l.withFeatures features).prepare c).perform h₂).1 = ((l.prepare c).perform h).1)) := by
  refine ⟨?_, ?_, ?_, ?_⟩
  · intro r h' hrun
    obtain ⟨record, hgate, ⟨hsuits, hpid, hppid⟩, hproofs⟩ := admitted_of_prepare hjoin hrun
    exact ⟨record, hgate, hsuits, hpid, hppid, hproofs⟩
  · intro record hgate
    constructor
    · intro hnot
      exact hgate.result_of_checkJoin_error hjoin (InstanceRecord.checkJoin_of_not_suits hnot)
    · intro hsuits hbad
      exact hgate.result_of_checkJoin_error hjoin (InstanceRecord.checkJoin_of_not_plausible hsuits
        (InstanceRecord.not_plausible_iff.mpr hbad))
  · intro hnone
    cases harrival : arrival l c h with
    | ok record => exact absurd (arrival_ok.mp harrival) (hnone record)
    | error e => exact ⟨e, result_of_arrival_error hjoin harrival, arrival_error.mp harrival⟩
  · intro h₂ features hdiff hkeeps
    exact ⟨fun record => atGate_iff_of_differsInProc hdiff hkeeps,
      result_eq_of_differsInProc hdiff hkeeps hjoin⟩

/-! ## An instance of a user's -/

/-- A host with a supervisor of the user 1000 and the record of its instance. -/
def boxHost : Host :=
  .supervising ⟨1000, 1000, 0, []⟩ "0 0 4294967295\n" [["etc"], ["etc", "stagehand"]]
    [(["etc", "stagehand", "stagehand.yaml"], ""),
      (["box.json"],
        "\x7b\"name\":\"box\",\"pid\":42,\"ppid\":41,\"config\":\x7b\x7d\x7d")]

/-- A request to join the instance. -/
def joinBox : String :=
  "\x7b\"instanceJoin\":\"box\",\"instanceFile\":\"/box.json\"," ++
    "\"process\":\x7b\"args\":[\"sh\"]\x7d\x7d"

/-- The host without any processes. -/
def emptiedHost : Host :=
  { boxHost with tree := boxHost.tree.prune Host.processes }

theorem differsInProc_emptiedHost : boxHost.DiffersInProc emptiedHost where
  rest_eq := rfl
  find_eq _ hp := Tree.find?_prune_of_not_isUnder _ hp
  refusal_eq _ _ _ := rfl
  mount_eq _ _ := rfl

theorem prepare_joinBox :
    ∃ c r h' record, LaunchConfig.parse joinBox = .ok c ∧ c.instanceJoin.isSome = true ∧
      ((onHost boxHost true).prepare c).perform boxHost = (.ok r, h') ∧
      AtGate (onHost boxHost false) c boxHost record ∧ record.userNamespace = false ∧
      (onHost boxHost false).KeepsOutOfProc c boxHost := by
  obtain ⟨c, hparse, hc⟩ : ∃ c, LaunchConfig.parse joinBox = .ok c ∧
      (c.instanceJoin.isSome,
        (((onHost boxHost true).prepare c).perform boxHost).1.toOption.map fun r => r.plan.joinOnly,
        (arrival (onHost boxHost false) c boxHost).toOption.map InstanceRecord.userNamespace,
        decide ((onHost boxHost false).KeepsOutOfProc c boxHost)) =
      (true, some true, some false, true) :=
    Error.exists_ok_of_map (by decide +kernel)
  simp only [Prod.mk.injEq, decide_eq_true_eq] at hc
  obtain ⟨hjoin, hready, harrival, hkeeps⟩ := hc
  obtain ⟨r, h', hrun, -⟩ := Action.exists_perform_ok hready
  obtain ⟨record, hrecord, hnamespace⟩ := Error.exists_ok_of_map harrival
  exact ⟨c, r, h', record, hparse, hjoin, hrun, arrival_ok.mp hrecord, hnamespace, hkeeps⟩

/-- A privileged launch of the user is let through and is ready.  A launch without
privileges is refused, and so it is where there are no processes at all. -/
theorem join_gate_joinBox :
    ∃ c r h' record, LaunchConfig.parse joinBox = .ok c ∧ c.instanceJoin.isSome = true ∧
      ((onHost boxHost true).prepare c).perform boxHost = (.ok r, h') ∧
      AtGate (onHost boxHost true) c boxHost record ∧ 1 < record.pid ∧ 1 < record.ppid ∧
      (∃ directory h₁,
        InstanceProof.checkAll (.ofDirectory h₁ directory) ⟨1000, 1000, record.ppid⟩ = .ok ()) ∧
      (((onHost boxHost false).prepare c).perform boxHost).1 =
        .error (InstanceRecord.mismatch false) ∧
      (((onHost emptiedHost false).prepare c).perform emptiedHost).1 =
        .error (InstanceRecord.mismatch false) := by
  obtain ⟨c, r, h', record, hparse, hjoin, hrun, hgate, hnamespace, hkeeps⟩ := prepare_joinBox
  obtain ⟨hready, -, -, -⟩ := join_gate (l := onHost boxHost true) (h := boxHost) hjoin
  obtain ⟨record₁, hgate₁, -, hpid, hppid, hproofs⟩ := hready r h' hrun
  obtain ⟨directory, h₁, -, hproofs⟩ := hproofs rfl
  obtain ⟨-, hrefuse, -, hworlds⟩ := join_gate (l := onHost boxHost false) (h := boxHost) hjoin
  have hnot : ¬ record.Suits (onHost boxHost false).facts.caller.uid
      (onHost boxHost false).facts.isSuid := by
    intro hsuits
    have hneeds : (1000 : UInt32) ≠ 0 ∧ record.userNamespace = false := ⟨by decide, hnamespace⟩
    exact Bool.false_ne_true (hsuits.mpr hneeds)
  have hrefused := (hrefuse record hgate).1 hnot
  obtain ⟨-, hsame⟩ := hworlds emptiedHost (.ofHost emptiedHost) differsInProc_emptiedHost hkeeps
  have hall : ∀ other, AtGate (onHost boxHost false) c boxHost other →
      ¬ (onHost boxHost false).Admits other := by
    intro other hother hadmits
    have heq : record = other :=
      Except.ok.inj (hgate.record_loaded.symm.trans hother.record_loaded)
    exact hnot (heq ▸ hadmits.1)
  exact ⟨c, r, h', record₁, hparse, hjoin, hrun, hgate₁, hpid, hppid,
    ⟨directory.place, h₁, hproofs⟩, hrefused, (hsame hall).trans hrefused⟩

end Launcher
end ContainerLaunch
