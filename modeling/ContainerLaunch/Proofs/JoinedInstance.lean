import ContainerLaunch.Proofs.DescriptorOwnership
import ContainerLaunch.Proofs.Text
/-!
# What a joined instance settles

A launch that joins an instance brings namespaces and a confinement of its own, and so
does the record of the instance.  Of the namespaces only those of the instance are joined,
all of them through the directory of its process that the launch holds open.  The
confinement is that of the instance, except where a security option of the request says
otherwise; what the request asks for in any other way does not count.
-/

namespace ContainerLaunch

/-! ## Security options -/

/-- The first security option of a key that is not empty says a value. -/
def FirstOption (options : List String) (key value : String) : Prop :=
  value ≠ "" ∧ ∃ before after, options = before ++ (key ++ ":" ++ value) :: after ∧
    ∀ other, other ≠ "" → key ++ ":" ++ other ∉ before

namespace LaunchConfig

variable {c : LaunchConfig} {key entry value : String}

theorem optionOf_eq_some_iff (hkey : ':' ∉ key.toList) :
    optionOf key entry = some value ↔ entry = key ++ ":" ++ value ∧ value ≠ "" := by
  have hcut : ∀ k, Text.splitOnce ':' entry = some (k, value) ↔
      entry = k ++ ":" ++ value ∧ ':' ∉ k.toList := fun _ => Text.splitOnce_eq_some_iff
  unfold optionOf
  constructor
  · intro hvalue
    split at hvalue
    · next k v hsplit =>
      split at hvalue
      · next hboth =>
        obtain ⟨rfl, hsome⟩ := hboth
        cases hvalue
        exact ⟨((hcut k).mp hsplit).1, hsome⟩
      · cases hvalue
    · cases hvalue
  · rintro ⟨hentry, hsome⟩
    rw [(hcut key).mpr ⟨hentry, hkey⟩]
    exact if_pos ⟨rfl, hsome⟩

theorem securityOption_eq_some_iff (hkey : ':' ∉ key.toList) :
    c.securityOption key = some value ↔ FirstOption c.security key value := by
  have hskipped : ∀ entries : List String, (∀ e ∈ entries, optionOf key e = none) ↔
      ∀ other, other ≠ "" → key ++ ":" ++ other ∉ entries := by
    intro entries
    simp only [Option.eq_none_iff_forall_ne_some, ne_eq, optionOf_eq_some_iff hkey, not_and]
    constructor
    · intro hnone other hother hmem
      exact hnone _ hmem other rfl hother
    · rintro hnone _ hmem other rfl hother
      exact hnone other hother hmem
  rw [securityOption, List.findSome?_eq_some_iff]
  constructor
  · rintro ⟨before, entry, after, hoptions, hentry, hbefore⟩
    obtain ⟨rfl, hsome⟩ := (optionOf_eq_some_iff hkey).mp hentry
    exact ⟨hsome, before, after, hoptions, (hskipped before).mp hbefore⟩
  · rintro ⟨hsome, before, after, hoptions, hbefore⟩
    exact ⟨before, _, after, hoptions, (optionOf_eq_some_iff hkey).mpr ⟨rfl, hsome⟩,
      (hskipped before).mpr hbefore⟩

end LaunchConfig

/-! ## Confinement -/

/-- One part of a confinement is what the first security option of a key means, and without
such an option what the instance has. -/
def Settles {α : Type} (options : List String) (key : String) (means : String → α → Prop)
    (theirs final : Option α) : Prop :=
  (∃ value a, FirstOption options key value ∧ means value a ∧ final = some a) ∨
    (∀ value, ¬ FirstOption options key value) ∧ final = theirs

/-- A part that is read from the option, where there is one, settles as it should. -/
theorem LaunchConfig.settles_of_read {α : Type} {c : LaunchConfig} {key : String}
    {means : String → α → Prop} {found mine theirs : Option α} (hkey : ':' ∉ key.toList)
    (hfound : ∀ value, c.securityOption key = some value → ∃ a, found = some a ∧ means value a) :
    Settles c.security key means theirs
      (if (c.securityOption key).isSome then found.or mine else theirs) := by
  cases hoption : c.securityOption key with
  | none =>
      refine Or.inr ⟨?_, by simp⟩
      intro value hvalue
      rw [(securityOption_eq_some_iff hkey).mpr hvalue] at hoption
      cases hoption
  | some value =>
      obtain ⟨a, rfl, hmeans⟩ := hfound value hoption
      exact Or.inl ⟨value, a, (securityOption_eq_some_iff hkey).mp hoption, hmeans, by simp⟩

/-- A confinement of which every part settles on its own.  A seccomp option names a file,
which is read on the host. -/
structure Confined (h : Host) (options : List String) (original final : ProcessSettings) :
    Prop where
  selinux : Settles options "selinux" (· = ·) original.selinuxLabel final.selinuxLabel
  apparmor : Settles options "apparmor" (· = ·) original.apparmorProfile final.apparmorProfile
  seccomp : ∃ h₁ : Host, h₁.lasting = h.lasting ∧
    Settles options "seccomp" (fun file profile => Draft.seccompProfile h₁ ⟨file⟩ = .ok profile)
      original.seccomp final.seccomp

/-- Only these three parts of a process count, and of the host only what lasts. -/
theorem Confined.congr {h h' : Host} {options : List String}
    {original final final' : ProcessSettings} (hconfined : Confined h options original final)
    (hlast : h.lasting = h'.lasting) (hselinux : final'.selinuxLabel = final.selinuxLabel)
    (happarmor : final'.apparmorProfile = final.apparmorProfile)
    (hseccomp : final'.seccomp = final.seccomp) : Confined h' options original final' := by
  obtain ⟨h₁, hsame, hprofile⟩ := hconfined.seccomp
  refine ⟨?_, ?_, h₁, hsame.trans hlast, ?_⟩
  · rw [hselinux]
    exact hconfined.selinux
  · rw [happarmor]
    exact hconfined.apparmor
  · rw [hseccomp]
    exact hprofile

theorem Draft.seccompOption_ok {h : Host} {c : LaunchConfig} {found : Option Json}
    (hfound : seccompOption h c = .ok found) (value : String)
    (hoption : c.securityOption "seccomp" = some value) :
    ∃ profile, found = some profile ∧ seccompProfile h ⟨value⟩ = .ok profile := by
  unfold seccompOption at hfound
  rw [hoption] at hfound
  obtain ⟨profile, hprofile, rfl⟩ := Error.map_eq_ok.mp hfound
  exact ⟨profile, rfl, hprofile⟩

namespace Draft

variable {l : Launcher} {policy : AdminFiles} {d d' : Draft} {h h' : Host}
  {original : LaunchConfig}

/-- Once the security options are applied, what they do not say is restored. -/
theorem confined_restoreConfinement (d : Draft) (original : LaunchConfig) {seccomp : Option Json}
    (hseccomp : seccompOption h d.config = .ok seccomp) :
    Confined h d.config.security original.process
      ((d.secured seccomp).restoreConfinement original).config.process where
  selinux := LaunchConfig.settles_of_read (by decide) fun value hvalue => ⟨value, hvalue, rfl⟩
  apparmor := LaunchConfig.settles_of_read (by decide) fun value hvalue => ⟨value, hvalue, rfl⟩
  seccomp := ⟨h, rfl, LaunchConfig.settles_of_read (by decide) (seccompOption_ok hseccomp)⟩

/-- What is taken over from an instance: its namespaces and the directory of its process
in the plan, and a confinement of which every part is settled. -/
theorem takeOver_settles {record : InstanceRecord}
    (hrun : (d.takeOver l policy).perform h = (.ok (record, original, d'), h')) :
    ∃ enforced directory h₁, Examined l h d.config record enforced directory h₁ original ∧
      d'.held = d.held ++ [directory] ∧ d'.plan = d.joinPlan directory original ∧
      Confined h' d.config.security original.process d'.config.process := by
  obtain ⟨enforced, directory, h₁, seccomp, hexamined, -, hseccomp, rfl⟩ := takeOver_ok hrun
  have hconfined := confined_restoreConfinement
    (((d.asking directory original).granted
      (joinGrant l policy d enforced directory original)).restoreUser original) original hseccomp
  exact ⟨enforced, directory, h₁, hexamined, sameHandles_takingOver.held, takingOver_plan,
    hconfined⟩

end Draft

/-! ## Namespaces -/

namespace Launcher

variable {l : Launcher} {c : LaunchConfig} {h h' : Host} {r : ReadyLaunch}

theorem tableEntry_mem_owned {f : OpenFile} (hf : f ∈ r.held) : f.tableEntry ∈ r.owned :=
  List.mem_append_left _ (List.mem_append_right _ (List.mem_map_of_mem hf))

/-- What a launch that is ready owns is open. -/
theorem opened_of_prepare (hrun : (l.prepare c).perform h = (.ok r, h')) : h.Opened r.owned h' := by
  obtain ⟨files, -, hsteps⟩ := prepare_ok.mp hrun
  obtain ⟨-, d, h₁, handles, h₂, ends, hcontainer, hopen, -, hpair, rfl⟩ := prepareWith_ok hsteps
  obtain ⟨hacc, -, -⟩ := accounted_container hcontainer
  obtain ⟨-, hfuse⟩ := FuseMount.openAll_ok hopen
  exact (owned_readyWith (accounted_handles (l := l) hacc hfuse) hpair).1

/-- A launch that creates no namespace and joins those of an instance, each in the directory
of its process, which it holds open as its working directory and its image. -/
structure Enters (h : Host) (record : InstanceRecord) (namespaces : NamespaceList)
    (r : ReadyLaunch) (h' : Host) : Prop where
  join_only : r.plan.joinOnly = true
  creates_nothing : r.plan.creationFlags = 0
  joins_eq : ∀ k, r.plan.joinPaths k =
    if namespaces.has k then some ⟨"ns/" ++ k.entryName⟩ else none
  directory_open : ∃ directory : OpenFile,
    h.opening .directory (Draft.processPath record.pid) =
        .ok (directory.place, directory.inode) ∧
      directory ∈ r.held ∧ h'.descriptor? directory.number = some directory.tableEntry ∧
      r.plan.workingDirectoryFd = some (Draft.descriptor directory) ∧
      r.plan.imageFd = some (Draft.descriptor directory)

/-- A launch that has joined an instance enters the namespaces of the instance, and no
others, through the directory of its process.  Of its confinement every part is what the
first security option of the request says about it, if there is one, and otherwise what the
record of the instance has. -/
theorem joined_entered_and_confined (hjoin : c.instanceJoin.isSome = true)
    (hrun : (l.prepare c).perform h = (.ok r, h')) :
    ∃ record original,
      InstanceRecord.load h (Draft.recordPath h l.facts.caller c) = .ok record ∧
      Draft.instanceConfig record = .ok original ∧
      Enters h record original.namespaces r h' ∧
      Confined h c.security original.process r.config.process := by
  obtain ⟨files, record, original, d₁, h₁, handles, ends, -, htake, rfl⟩ :=
    prepare_join_ok hjoin hrun
  obtain ⟨enforced, directory, h₂, hexamined, hheld, hplan, hconfined⟩ :=
    Draft.takeOver_settles htake
  have hlast : h₁.lasting = h.lasting :=
    ((Draft.quiet_takeOver _ _ _).lasting_eq htake).trans (lasting_opened l c h)
  have hsecurity : (opening l c h).config.security = c.security := by
    rw [opening_config]
  rw [hsecurity] at hconfined
  obtain ⟨hfound, -, -⟩ := Action.perform_openFile_ok.mp hexamined.directory_opened
  have hmem : directory ∈
      (closed l (d₁.restorePrivileges l.facts.caller original) handles ends).held := by
    rw [closed_held, Draft.restorePrivileges_eq, hheld]
    simp
  have hopen := (opened_of_prepare hrun).descriptor?_eq (tableEntry_mem_owned hmem)
  have hpaths : ∀ k, d₁.plan.joinPaths k =
      if original.namespaces.has k then some ⟨"ns/" ++ k.entryName⟩ else none := by
    intro k
    rw [hplan, ← NamespaceList.procPath_eq, ← NamespaceList.lastPath_relativeToProcess,
      Draft.joinPlan]
    simp only [opening_joinPaths, Option.or_none]
  have hflags : d₁.plan.creationFlags = 0 := by
    rw [hplan, Draft.joinPlan, opening_plan]
    split <;> rfl
  have hload : InstanceRecord.load h (Draft.recordPath h l.facts.caller c) = .ok record := by
    rw [← loadRecord_opening]
    exact hexamined.record_loaded
  refine ⟨record, original, hload, hexamined.config_read, ?_, ?_⟩
  · refine ⟨?_, ?_, ?_, directory, hfound, hmem, hopen, ?_, ?_⟩
    all_goals
      rw [closed_plan]
    · exact congrArg Plan.joinOnly hplan
    · exact hflags
    · exact hpaths
    · exact congrArg Plan.workingDirectoryFd hplan
    · exact congrArg Plan.imageFd hplan
  · exact hconfined.congr hlast rfl rfl rfl

/-! ## A request that says little about an instance -/

/-- A host of the superuser with the process of an instance and its record. -/
def labelledHost : Host :=
  .plain ⟨0, 0, 0, []⟩ [["etc"], ["etc", "stagehand"], ["proc"], ["proc", "42"]]
    [(["etc", "stagehand", "stagehand.yaml"], ""),
      (["box"], "\x7b\"name\":\"\",\"pid\":42,\"ppid\":41,\"config\":\x7b" ++
        "\"namespaces\":[\x7b\"type\":\"network\"\x7d]," ++
        "\"process\":\x7b\"apparmorProfile\":\"theirs\"\x7d\x7d\x7d")]

/-- A request with a namespace and a confinement of its own. -/
def joinLabelled : String :=
  "\x7b\"instanceJoin\":\"\",\"instanceFile\":\"/box\"," ++
    "\"namespaces\":[\x7b\"type\":\"pid\"\x7d],\"security\":[\"selinux:mine\"]," ++
    "\"process\":\x7b\"args\":[\"\"],\"apparmorProfile\":\"own\"\x7d\x7d"

theorem prepare_joinLabelled :
    ∃ c r h', LaunchConfig.parse joinLabelled = .ok c ∧ c.instanceJoin.isSome = true ∧
      ((onHost labelledHost false).prepare c).perform labelledHost = (.ok r, h') ∧
      NamespaceKind.all.map r.plan.joinPaths =
        [none, none, none, none, some ⟨"ns/net"⟩, none, none] ∧
      r.config.process.selinuxLabel = some "mine" ∧
      r.config.process.apparmorProfile = some "theirs" := by
  obtain ⟨c, hparse, hc⟩ : ∃ c, LaunchConfig.parse joinLabelled = .ok c ∧
      (c.instanceJoin.isSome,
        (((onHost labelledHost false).prepare c).perform labelledHost).1.toOption.map fun r =>
          (NamespaceKind.all.map r.plan.joinPaths,
            [r.config.process.selinuxLabel, r.config.process.apparmorProfile])) =
      (true, some ([none, none, none, none, some ⟨"ns/net"⟩, none, none],
        [some "mine", some "theirs"])) :=
    Error.exists_ok_of_map (by decide +kernel)
  simp only [Prod.mk.injEq] at hc
  obtain ⟨hjoin, hready⟩ := hc
  obtain ⟨r, h', hrun, hready⟩ := Action.exists_perform_ok hready
  obtain ⟨hpaths, hlabels⟩ := Prod.mk.inj hready
  obtain ⟨hselinux, hrest⟩ := List.cons.inj hlabels
  exact ⟨c, r, h', hparse, hjoin, hrun, hpaths, hselinux, (List.cons.inj hrest).1⟩

/-- Neither the namespace nor the confinement of the request's own survives, only its
security option. -/
theorem joined_entered_and_confined_joinLabelled :
    ∃ c r h' record, ∃ original : LaunchConfig, LaunchConfig.parse joinLabelled = .ok c ∧
      c.instanceJoin.isSome = true ∧
      ((onHost labelledHost false).prepare c).perform labelledHost = (.ok r, h') ∧
      Enters labelledHost record original.namespaces r h' ∧
      Confined labelledHost c.security original.process r.config.process ∧
      NamespaceKind.all.map r.plan.joinPaths =
        [none, none, none, none, some ⟨"ns/net"⟩, none, none] ∧
      r.config.process.selinuxLabel = some "mine" ∧
      r.config.process.apparmorProfile = some "theirs" := by
  obtain ⟨c, r, h', hparse, hjoin, hrun, hready⟩ := prepare_joinLabelled
  obtain ⟨record, original, -, -, henters, hconfined⟩ := joined_entered_and_confined hjoin hrun
  exact ⟨c, r, h', record, original, hparse, hjoin, hrun, henters, hconfined, hready⟩

end Launcher
end ContainerLaunch
