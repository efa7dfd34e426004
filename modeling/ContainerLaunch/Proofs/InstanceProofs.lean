import ContainerLaunch.Proofs.Launch.Preparation
import ContainerLaunch.Proofs.Text
/-!
# What an instance has to show

The proofs of an instance are meant to show that its process has no user namespace,
that nobody may read the root links of it and of its parent, that both belong to the
caller who joins, and that the process is the supervisor that the record names.  What
is examined is a little less: only the first number of a map counts, and only if it is
one of 32 bits, a link that may not be followed for want of permission is as good as
one to which access is denied, and any number of line feeds may end the name of the
supervisor.

A standard says what passes in these three respects.  The proofs apply one standard
exactly, and a process that meets it meets the stricter, documented one if and only if
nothing was overlooked.
-/

namespace ContainerLaunch

namespace InstanceProof

variable {v : ProcessView} {c : JoinClaim} {content : String}

/-! ## Numbers in a map -/

/-- The number that a field writes, however large it is. -/
def fieldNumber (field : String) : Option Nat :=
  match field.toList with
  | '+' :: rest => Text.natOfDigits rest
  | cs => Text.natOfDigits cs

/-- The host's number in a line of a map. -/
def lineNumber (line : String) : Option Nat :=
  (Text.words line)[1]? >>= fieldNumber

theorem u32?_eq (field : String) :
    Text.u32? field = ((fieldNumber field).bind (Text.below UInt32.size)).map UInt32.ofNat := by
  unfold Text.u32? Text.natOfChars fieldNumber
  cases field.toList with
  | nil => rfl
  | cons first rest =>
      by_cases hplus : first = '+'
      · rw [hplus]
        rfl
      · simp [hplus]

/-- A number of a map counts if it has 32 bits and stands in the first line. -/
theorem hostNumber_eq_some_iff {id : UInt32} :
    hostNumber content = some id ↔
      ∃ line, (Text.lines content).head? = some line ∧ lineNumber line = some id.toNat := by
  simp only [hostNumber, Option.bind_eq_bind, Option.bind_eq_some_iff, lineNumber, u32?_eq,
    Option.map_eq_some_iff, Text.below_eq_some_iff]
  constructor
  · rintro ⟨line, hline, field, hfield, n, ⟨m, hm, hsize, rfl⟩, rfl⟩
    refine ⟨line, hline, field, hfield, ?_⟩
    rw [hm, UInt32.toNat_ofNat_of_lt' hsize]
  · rintro ⟨line, hline, field, hfield, hn⟩
    exact ⟨line, hline, field, hfield, id.toNat, ⟨id.toNat, hn, id.toNat_lt, rfl⟩,
      UInt32.ofNat_toNat⟩

/-! ## Standards -/

/-- What passes where the proofs of an instance can be more or less strict. -/
structure Standard where
  /-- The maps of user numbers. -/
  map : String → Prop
  /-- The errors that count as a denial. -/
  denial : IoError → Prop
  /-- The contents of the file with the name of the process. -/
  command : String → Prop

namespace Standard

/-- No line of a map has a host's number above 0, access is denied, and the name is the
supervisor's, ended by a line feed or not. -/
def documented : Standard where
  map content := ∀ line ∈ Text.lines content, ∀ n, lineNumber line = some n → n = 0
  denial cause := cause = .system .accessDenied
  command content := content = supervisor ∨ content = supervisor ++ "\n"

/-- The first line of a map has no host's number of 32 bits above 0, there is no access or
no permission, and the name is the supervisor's, ended by any number of line feeds. -/
def applied : Standard where
  map content := ∀ line, (Text.lines content).head? = some line →
    ∀ n, lineNumber line = some n → n < UInt32.size → n = 0
  denial cause := cause = .system .accessDenied ∨ cause = .system .notPermitted
  command content := ∃ n, content = supervisor ++ String.ofList (List.replicate n '\n')

end Standard

/-- The status of a process names a parent in the first line that speaks of one. -/
def Reports (status : String) (ppid : Int32) : Prop :=
  ∃ before line after value, Text.lines status = before ++ line :: after ∧
    (∀ l ∈ before, Text.stripStart "PPid:" l = none) ∧
    Text.stripStart "PPid:" line = some value ∧ Text.i32? (Text.trim value) = some ppid

/-- What a process shows that meets a standard. -/
structure Meets (s : Standard) (v : ProcessView) (c : JoinClaim) : Prop where
  no_user_namespace : v.readText ⟨"uid_map"⟩ = .error (.system .noEntry) ∨
    ∃ content, v.readText ⟨"uid_map"⟩ = .ok content ∧ s.map content
  root_denied : ∃ cause, v.linkTarget ⟨"root"⟩ = .error cause ∧ s.denial cause
  task_owned : v.owner ⟨"task"⟩ = .ok (c.uid, c.gid)
  parent_named : ∃ status, v.readText ⟨"status"⟩ = .ok status ∧ Reports status c.ppid ∧ 1 < c.ppid
  parent_root_denied :
    ∃ cause, v.linkTarget ((parentPath c).join ⟨"root"⟩) = .error cause ∧ s.denial cause
  parent_task_owned : v.owner ((parentPath c).join ⟨"task"⟩) = .ok (c.uid, c.gid)
  supervisor_named : ∃ content, v.readText ⟨"comm"⟩ = .ok content ∧ s.command content

/-! ## Single proofs -/

theorem isNotFound_iff {cause : IoError} :
    cause.isNotFound = true ↔ cause = .system .noEntry := by
  simp [IoError.isNotFound]

theorem isDenied_iff {cause : IoError} :
    cause.isDenied = true ↔ Standard.applied.denial cause := by
  simp [IoError.isDenied, Standard.applied]

/-- A map passes if it says nothing about the host's number, or says that it is the
superuser's. -/
theorem map_applied_iff :
    Standard.applied.map content ↔ ∀ id, hostNumber content = some id → id = 0 := by
  constructor
  · intro hmap id hid
    obtain ⟨line, hline, hnumber⟩ := hostNumber_eq_some_iff.mp hid
    exact UInt32.toNat_inj.mp (hmap line hline _ hnumber id.toNat_lt)
  · intro hall line hline n hn hsize
    have hid : hostNumber content = some (UInt32.ofNat n) :=
      hostNumber_eq_some_iff.mpr ⟨line, hline, by rw [hn, UInt32.toNat_ofNat_of_lt' hsize]⟩
    have hzero := congrArg UInt32.toNat (hall _ hid)
    rwa [UInt32.toNat_ofNat_of_lt' hsize] at hzero

theorem requireHostNumbers_ok :
    requireHostNumbers v = .ok () ↔ v.readText ⟨"uid_map"⟩ = .error (.system .noEntry) ∨
      ∃ content, v.readText ⟨"uid_map"⟩ = .ok content ∧ Standard.applied.map content := by
  unfold requireHostNumbers
  cases hread : v.readText ⟨"uid_map"⟩ with
  | error cause => simp [← isNotFound_iff]
  | ok content =>
      have hpositive : ∀ id : UInt32, 0 < id ↔ id ≠ 0 := fun id => UInt32.pos_iff_ne_zero
      cases hnumber : hostNumber content with
      | none => simp [map_applied_iff, hnumber]
      | some id => by_cases hzero : id = 0 <;> simp [map_applied_iff, hnumber, hpositive, hzero]

theorem requireDenied_ok {p : Path} :
    requireDenied v p = .ok () ↔
      ∃ cause, v.linkTarget p = .error cause ∧ Standard.applied.denial cause := by
  unfold requireDenied
  cases v.linkTarget p with
  | ok target => simp
  | error cause => simp [← isDenied_iff]

theorem requireOwner_ok {p : Path} {what : String} :
    requireOwner v p c what = .ok () ↔ v.owner p = .ok (c.uid, c.gid) := by
  unfold requireOwner
  cases v.owner p with
  | error cause => simp
  | ok owner => simp [Prod.ext_iff]

theorem statusParent_eq_some_iff {status : String} {ppid : Int32} :
    statusParent status = some ppid ↔ Reports status ppid := by
  simp only [statusParent, Option.bind_eq_bind, Option.bind_eq_some_iff,
    List.findSome?_eq_some_iff, Reports]
  constructor
  · rintro ⟨value, ⟨before, line, after, hlines, hvalue, hbefore⟩, hppid⟩
    exact ⟨before, line, after, value, hlines, hbefore, hvalue, hppid⟩
  · rintro ⟨before, line, after, value, hlines, hbefore, hvalue, hppid⟩
    exact ⟨value, ⟨before, line, after, hlines, hvalue, hbefore⟩, hppid⟩

theorem expectParent_ok :
    expectParent v c = .ok () ↔
      ∃ status, v.readText ⟨"status"⟩ = .ok status ∧ Reports status c.ppid ∧ 1 < c.ppid := by
  unfold expectParent
  cases v.readText ⟨"status"⟩ with
  | error cause => simp
  | ok status =>
      simp only [Except.ok.injEq, exists_eq_left', ← statusParent_eq_some_iff]
      cases statusParent status with
      | none => simp
      | some ppid =>
          by_cases hsame : ppid = c.ppid
          · simp [hsame]
          · simp [hsame]

theorem expectSupervisor_ok :
    expectSupervisor v = .ok () ↔
      ∃ content, v.readText ⟨"comm"⟩ = .ok content ∧ Standard.applied.command content := by
  have hlast : supervisor.toList.getLast? ≠ some '\n' := by decide
  have hcommand : ∀ content, commandOf content = supervisor ↔
      Standard.applied.command content := by
    intro content
    simp only [commandOf, Standard.applied, ← String.toList_inj, String.toList_ofList,
      String.toList_append, Text.dropTrailing_eq_iff hlast]
  unfold expectSupervisor
  cases v.readText ⟨"comm"⟩ with
  | error cause => simp
  | ok content => simp [hcommand]

/-! ## All proofs -/

/-- The result of several proofs is the reason of the first that fails. -/
theorem verifyEach_error_iff {ps : List InstanceProof} {e : Error} :
    verifyEach v c ps = .error e ↔ ∃ before p after reason, ps = before ++ p :: after ∧
      (∀ q ∈ before, check v c q = .ok ()) ∧ check v c p = .error reason ∧
      e = .instanceIntegrity reason := by
  induction ps with
  | nil => simp [verifyEach]
  | cons p rest ih =>
      simp only [verifyEach]
      cases hp : check v c p with
      | error reason =>
          constructor
          · intro he
            exact ⟨[], p, rest, reason, rfl, by simp, hp, (Except.error.inj he).symm⟩
          · rintro ⟨before, q, after, reason', hsplit, hbefore, hq, rfl⟩
            cases before with
            | nil =>
                obtain ⟨rfl, -⟩ := List.cons.inj hsplit
                rw [hp] at hq
                rw [Except.error.inj hq]
            | cons b before =>
                obtain ⟨rfl, -⟩ := List.cons.inj hsplit
                have hok := hbefore p List.mem_cons_self
                rw [hp] at hok
                cases hok
      | ok u =>
          rw [ih]
          constructor
          · rintro ⟨before, q, after, reason, rfl, hbefore, hq, he⟩
            refine ⟨p :: before, q, after, reason, rfl, ?_, hq, he⟩
            simpa [hp] using hbefore
          · rintro ⟨before, q, after, reason, hsplit, hbefore, hq, he⟩
            cases before with
            | nil =>
                obtain ⟨rfl, -⟩ := List.cons.inj hsplit
                rw [hp] at hq
                cases hq
            | cons b before =>
                obtain ⟨-, hrest⟩ := List.cons.inj hsplit
                exact ⟨before, q, after, reason, hrest,
                  fun r hr => hbefore r (List.mem_cons_of_mem _ hr), hq, he⟩

/-- The proofs apply a standard exactly. -/
theorem checkAll_ok : checkAll v c = .ok () ↔ Meets .applied v c := by
  simp only [checkAll, verifyEach_ok_iff, all, List.forall_mem_cons, check,
    requireHostNumbers_ok, requireDenied_ok, requireOwner_ok, expectParent_ok,
    expectSupervisor_ok]
  constructor
  · rintro ⟨hmap, hroot, htask, hparent, hparentRoot, hparentTask, hname, -⟩
    exact ⟨hmap, hroot, htask, hparent, hparentRoot, hparentTask, hname⟩
  · rintro ⟨hmap, hroot, htask, hparent, hparentRoot, hparentTask, hname⟩
    exact ⟨hmap, hroot, htask, hparent, hparentRoot, hparentTask, hname, by simp⟩

/-! ## What is overlooked -/

/-- What the proofs overlook of a process. -/
inductive Overlooks (v : ProcessView) (c : JoinClaim) : Prop
  /-- A number of a user namespace that does not stand in the first line of the map or
  has more than 32 bits. -/
  | number (content line : String) (n : Nat) (hread : v.readText ⟨"uid_map"⟩ = .ok content)
      (hline : line ∈ Text.lines content) (hnumber : lineNumber line = some n) (hpos : 0 < n)
      (hskipped : (Text.lines content).head? ≠ some line ∨ UInt32.size ≤ n)
  /-- A root link that there is no permission to read. -/
  | permission (p : Path) (hroot : p = ⟨"root"⟩ ∨ p = (parentPath c).join ⟨"root"⟩)
      (hlink : v.linkTarget p = .error (.system .notPermitted))
  /-- Line feeds at the end of the name of the process. -/
  | feeds (n : Nat)
      (hread : v.readText ⟨"comm"⟩ =
        .ok (supervisor ++ String.ofList (List.replicate (n + 2) '\n')))

/-- Whatever meets the documented standard meets the one that is applied, and nothing is
overlooked of it. -/
theorem Meets.applied (hmeets : Meets .documented v c) :
    Meets .applied v c ∧ ¬ Overlooks v c := by
  have hdenial : ∀ {p : Path}, (∃ cause, v.linkTarget p = .error cause ∧
      Standard.documented.denial cause) → v.linkTarget p = .error (.system .accessDenied) := by
    rintro p ⟨cause, hlink, rfl⟩
    exact hlink
  have hroot := hdenial hmeets.root_denied
  have hparent := hdenial hmeets.parent_root_denied
  constructor
  · refine
      { no_user_namespace := ?_
        root_denied := ⟨_, hroot, Or.inl rfl⟩
        task_owned := hmeets.task_owned
        parent_named := hmeets.parent_named
        parent_root_denied := ⟨_, hparent, Or.inl rfl⟩
        parent_task_owned := hmeets.parent_task_owned
        supervisor_named := ?_ }
    · rcases hmeets.no_user_namespace with hmissing | ⟨content, hread, hmap⟩
      · exact Or.inl hmissing
      · refine Or.inr ⟨content, hread, ?_⟩
        intro line hline n hn _
        exact hmap line (List.mem_of_mem_head? hline) n hn
    · obtain ⟨content, hread, rfl | rfl⟩ := hmeets.supervisor_named
      · exact ⟨_, hread, 0, rfl⟩
      · exact ⟨_, hread, 1, rfl⟩
  · intro hover
    cases hover with
    | number content line n hread hline hnumber hpos hskipped =>
        rcases hmeets.no_user_namespace with hmissing | ⟨content', hread', hmap⟩
        · rw [hread] at hmissing
          cases hmissing
        · rw [hread] at hread'
          cases hread'
          exact Nat.ne_of_gt hpos (hmap line hline n hnumber)
    | permission p hp hlink =>
        rcases hp with rfl | rfl
        · rw [hlink] at hroot
          revert hroot
          decide
        · rw [hlink] at hparent
          revert hparent
          decide
    | feeds n hread =>
        obtain ⟨content, hread', hname⟩ := hmeets.supervisor_named
        rw [hread] at hread'
        cases hread'
        rcases hname with hname | hname
        · have hlen := congrArg (List.length ∘ String.toList) hname
          simp [supervisor] at hlen
        · have hlen := congrArg (List.length ∘ String.toList) hname
          simp [supervisor] at hlen

/-- A process of which nothing was overlooked meets the documented standard. -/
theorem Meets.documented (hmeets : Meets .applied v c) (hnone : ¬ Overlooks v c) :
    Meets .documented v c := by
  have hdenial : ∀ {p : Path}, p = ⟨"root"⟩ ∨ p = (parentPath c).join ⟨"root"⟩ →
      (∃ cause, v.linkTarget p = .error cause ∧ Standard.applied.denial cause) →
      ∃ cause, v.linkTarget p = .error cause ∧ Standard.documented.denial cause := by
    rintro p hp ⟨cause, hlink, rfl | rfl⟩
    · exact ⟨_, hlink, rfl⟩
    · exact absurd (.permission p hp hlink) hnone
  refine
    { no_user_namespace := ?_
      root_denied := hdenial (Or.inl rfl) hmeets.root_denied
      task_owned := hmeets.task_owned
      parent_named := hmeets.parent_named
      parent_root_denied := hdenial (Or.inr rfl) hmeets.parent_root_denied
      parent_task_owned := hmeets.parent_task_owned
      supervisor_named := ?_ }
  · rcases hmeets.no_user_namespace with hmissing | ⟨content, hread, hmap⟩
    · exact Or.inl hmissing
    · refine Or.inr ⟨content, hread, ?_⟩
      intro line hline n hn
      by_contra hpos
      refine hnone (.number content line n hread hline hn (Nat.pos_of_ne_zero hpos) ?_)
      by_contra hfirst
      obtain ⟨hhead, hsize⟩ := not_or.mp hfirst
      exact hpos (hmap line (not_not.mp hhead) n hn (Nat.lt_of_not_le hsize))
  · obtain ⟨content, hread, n, rfl⟩ := hmeets.supervisor_named
    match n with
    | 0 => exact ⟨_, hread, Or.inl rfl⟩
    | 1 => exact ⟨_, hread, Or.inr rfl⟩
    | n + 2 => exact absurd (.feeds n hread) hnone

/-- The proofs of an instance hold if and only if its process meets the standard that they
apply; whatever else they find is reported as a fault of the instance, with the reason of
the first proof that fails.  A process meets the documented standard if and only if the
proofs hold and nothing was overlooked. -/
theorem checkAll_exact (v : ProcessView) (c : JoinClaim) :
    (checkAll v c = .ok () ↔ Meets .applied v c) ∧
      (∀ e, checkAll v c = .error e ↔ ∃ before p after reason, all = before ++ p :: after ∧
        (∀ q ∈ before, check v c q = .ok ()) ∧ check v c p = .error reason ∧
        e = .instanceIntegrity reason) ∧
      (Meets .documented v c ↔ checkAll v c = .ok () ∧ ¬ Overlooks v c) := by
  refine ⟨checkAll_ok, fun e => verifyEach_error_iff, ?_⟩
  rw [checkAll_ok]
  exact ⟨Meets.applied, fun ⟨hmeets, hnone⟩ => hmeets.documented hnone⟩

end InstanceProof

/-! ## A process with two ranges of numbers -/

/-- A plain host on which the processes 42 and 41 are a supervisor and its parent, which
belong to the user 1000, with a given map of user numbers. -/
def Host.supervising (credentials : Credentials) (userMap : String) (directories : List Place)
    (texts : List (Place × String)) : Host :=
  let plain := Host.plain credentials (["proc"] :: ["proc", "42"] :: ["proc", "41"] :: directories)
    ((["proc", "42", "uid_map"], userMap) ::
      (["proc", "42", "status"], "Name:\tsinit\nPPid:\t41\n") ::
      (["proc", "42", "comm"], "sinit\n") :: texts)
  let own : Inode := ⟨.directory, 1000, 1000, true⟩
  let sealed : Inode := ⟨.sealedLink, 0, 0, true⟩
  { plain with
    tree := (((plain.tree.put ["proc", "42", "task"] own).put ["proc", "41", "task"] own).put
      ["proc", "42", "root"] sealed).put ["proc", "41", "root"] sealed }

namespace InstanceProof

/-- A process of a user namespace whose first range is the superuser's. -/
def twoRanges : ProcessView :=
  .ofDirectory (.supervising ⟨1000, 1000, 0, []⟩ "0 0 1\n1 100000 65536\n" [] [])
    ["proc", "42"]

/-- The proofs hold for a process that has a user namespace. -/
theorem checkAll_twoRanges :
    checkAll twoRanges ⟨1000, 1000, 41⟩ = .ok () ∧
      (∃ content line, twoRanges.readText ⟨"uid_map"⟩ = .ok content ∧
        line ∈ Text.lines content ∧ lineNumber line = some 100000) ∧
      ¬ Meets .documented twoRanges ⟨1000, 1000, 41⟩ := by
  have hread : twoRanges.readText ⟨"uid_map"⟩ = .ok "0 0 1\n1 100000 65536\n" := by
    decide +kernel
  have hline : "1 100000 65536" ∈ Text.lines "0 0 1\n1 100000 65536\n" := by decide
  have hnumber : lineNumber "1 100000 65536" = some 100000 := by decide
  refine ⟨by decide +kernel, ⟨_, _, hread, hline, hnumber⟩, ?_⟩
  intro hmeets
  rcases hmeets.no_user_namespace with hmissing | ⟨content, hread', hmap⟩
  · rw [hread] at hmissing
    cases hmissing
  · rw [hread] at hread'
    cases hread'
    exact absurd (hmap _ hline _ hnumber) (by decide)

end InstanceProof
end ContainerLaunch
