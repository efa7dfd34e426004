import ContainerLaunch.Proofs.Capabilities
import ContainerLaunch.Proofs.NetworkAuthority
import ContainerLaunch.Proofs.SetAsideRanges
/-!
# Callers without a name

The database may have no user for the number of a caller, who then has no name.  In the
files of ranges nobody is found by an empty name.  An entry of an allow-list that is blank
names such a caller, though, and so does an empty key of the capability table.  So a caller
without a name is authorized by its number or one of its groups only where the lists have
no such entries, or where these give it nothing that it would not have without them.
-/

namespace ContainerLaunch

/-! ## Lists, tables and files without blank entries -/

namespace SortedMap

variable {κ α : Type} [StrictOrder κ]

/-- The entries of a map whose keys are kept. -/
def restrict (m : SortedMap κ α) (keep : κ → Bool) : SortedMap κ α :=
  ⟨m.entries.filter fun e => keep e.1, m.increasing.filter _⟩

theorem get?_restrict [DecidableEq κ] (m : SortedMap κ α) (keep : κ → Bool) (key : κ) :
    (m.restrict keep).get? key = if keep key then m.get? key else none := by
  have hfind := find?_filter_key m.entries keep key
  simp only [beq_eq_decide] at hfind
  rw [get?, restrict, hfind]
  split <;> rfl

end SortedMap

/-- The policy without blank entries among the users who may join network namespaces. -/
def Policy.withoutBlankUsers (p : Policy) : Policy :=
  { p with allowNetUsers := p.allowNetUsers.filter fun entry => Text.trim entry != "" }

/-- The table without users whose names are blank. -/
def CapabilityTable.withoutBlankUsers (t : CapabilityTable) : CapabilityTable :=
  { t with users := t.users.restrict fun name => Text.trim name != "" }

/-- A line of a file of ranges has something in front of its first colon. -/
def SubIdRange.hasOwner (line : String) : Bool :=
  match Text.pieces ':' (Text.trim line) with
  | [] => false
  | owner :: _ => Text.trim owner != ""

/-- A file of ranges has the lines of another one, but for those that are blank or have a
blank owner. -/
def SubIdRange.WithoutBlankOwners (content' content : String) : Prop :=
  Text.lines content' = (Text.lines content).filter SubIdRange.hasOwner

/-! ## Networks -/

namespace Caller

variable {c : Caller} {list : List String}

theorem isInUsers_iff :
    c.isInUsers list = true ↔
      ∃ entry ∈ list, Text.trim entry = c.username ∨ Text.Writes (Text.trim entry) c.uid := by
  simp only [isInUsers, List.any_eq_true, isNamedBy, Bool.or_eq_true, beq_iff_eq,
    Text.u32?_eq_some_iff]

/-- A list without blank entries names a caller without a name by its number only. -/
theorem isInUsers_filter_iff (hname : c.username = "") :
    c.isInUsers (list.filter fun entry => Text.trim entry != "") = true ↔
      ∃ entry ∈ list, Text.Writes (Text.trim entry) c.uid := by
  simp only [isInUsers_iff, List.mem_filter, bne_iff_ne, hname]
  constructor
  · rintro ⟨entry, ⟨hentry, hnot⟩, hblank | hwrites⟩
    · exact absurd hblank hnot
    · exact ⟨entry, hentry, hwrites⟩
  · rintro ⟨entry, hentry, hwrites⟩
    refine ⟨entry, ⟨hentry, fun hblank => ?_⟩, Or.inr hwrites⟩
    rw [hblank] at hwrites
    exact hwrites.trim_ne_empty rfl

end Caller

/-- The policy names a caller, or one of its groups, among those who may join network
namespaces. -/
def Policy.NamesForNetworks (p : Policy) (c : Caller) : Prop :=
  c.isInUsers p.allowNetUsers = true ∨ c.isInGroups p.allowNetGroups = true

/-- A caller is let into a network namespace for a blank entry among the users, and for
nothing else. -/
structure LetInByBlank (s : NamespaceList) (h : Host) (p : Policy) (c : Caller) : Prop where
  not_superuser : c.euid ≠ 0
  listed : ∃ path, s.networkPath = some path ∧ (∃ inode, h.stat path = .ok inode) ∧
    ∃ allowed ∈ p.allowNetnsPaths, path.same allowed = true
  blank : ∃ entry ∈ p.allowNetUsers, Text.trim entry = ""
  not_by_number : ¬ ∃ entry ∈ p.allowNetUsers, Text.Writes (Text.trim entry) c.uid
  not_by_group : ¬ c.isInGroups p.allowNetGroups = true

namespace NamespaceList

variable {s : NamespaceList} {h : Host} {p p' : Policy} {c : Caller} {path : Path}

theorem mayJoinNetwork_congr (hpaths : p'.allowNetnsPaths = p.allowNetnsPaths)
    (hnamed : (∃ allowed ∈ p.allowNetnsPaths, path.same allowed = true) →
      (p'.NamesForNetworks c ↔ p.NamesForNetworks c)) :
    mayJoinNetwork p' c path = mayJoinNetwork p c path := by
  unfold mayJoinNetwork
  rw [hpaths]
  by_cases hlisted : p.allowNetnsPaths.any path.same = true
  · have hsame := hnamed (List.any_eq_true.mp hlisted)
    have hrefused : (!c.isInUsers p'.allowNetUsers && !c.isInGroups p'.allowNetGroups) =
        (!c.isInUsers p.allowNetUsers && !c.isInGroups p.allowNetGroups) := by
      rw [← Bool.not_or, ← Bool.not_or, Bool.not_inj_iff, Bool.eq_iff_iff, Bool.or_eq_true,
        Bool.or_eq_true]
      exact hsame
    rw [hrefused]
  · simp only [hlisted, Bool.not_false, if_true]

/-- Two policies decide alike about a network namespace if they list the same paths and
name the caller alike wherever that matters. -/
theorem authorizeNetwork_congr (hpaths : p'.allowNetnsPaths = p.allowNetnsPaths)
    (hnamed : c.euid ≠ 0 → (∃ path, s.networkPath = some path ∧
      (∃ inode, h.stat path = .ok inode) ∧
        ∃ allowed ∈ p.allowNetnsPaths, path.same allowed = true) →
      (p'.NamesForNetworks c ↔ p.NamesForNetworks c)) :
    s.authorizeNetwork h p' c = s.authorizeNetwork h p c := by
  unfold authorizeNetwork
  cases hpath : s.networkPath with
  | none => rfl
  | some path =>
      cases hstat : h.stat path with
      | error cause => simp only [hstat]
      | ok inode =>
          by_cases heuid : c.euid = 0
          · simp only [hstat, heuid, BEq.rfl, if_true]
          · have hmay : mayJoinNetwork p' c path = mayJoinNetwork p c path :=
              mayJoinNetwork_congr hpaths fun hlisted =>
                hnamed heuid ⟨path, hpath, ⟨inode, hstat⟩, hlisted⟩
            simp only [hstat, hmay]

theorem authorizeNetwork_of_granted (hpath : s.networkPath = some path)
    (hgranted : NetworkGranted p h c path) : s.authorizeNetwork h p c = .ok (some path) := by
  obtain ⟨inode, hstat⟩ := hgranted.found
  have hmay : mayJoinNetwork p c path = .ok () :=
    mayJoinNetwork_ok.mpr ⟨hgranted.listed, hgranted.named⟩
  simp only [authorizeNetwork, hpath, hstat, hmay]
  split <;> rfl

/-- Without blank entries a policy names a caller without a name by its number or one of
its groups. -/
theorem namesForNetworks_withoutBlankUsers (hname : c.username = "") :
    p.withoutBlankUsers.NamesForNetworks c ↔
      (∃ entry ∈ p.allowNetUsers, Text.Writes (Text.trim entry) c.uid) ∨
        c.isInGroups p.allowNetGroups = true := by
  rw [← Caller.isInUsers_filter_iff hname]
  exact Iff.rfl

/-- The blank entries of a policy make a difference to a caller without a name exactly if
it is let in for one of them and for nothing else. -/
theorem authorizeNetwork_withoutBlankUsers_iff (hname : c.username = "") :
    s.authorizeNetwork h p.withoutBlankUsers c = s.authorizeNetwork h p c ↔
      ¬ LetInByBlank s h p c := by
  constructor
  · intro hsame hblank
    obtain ⟨path, hpath, hfound, hlisted⟩ := hblank.listed
    obtain ⟨entry, hentry, htrim⟩ := hblank.blank
    have hnamed : c.isInUsers p.allowNetUsers = true :=
      Caller.isInUsers_iff.mpr ⟨entry, hentry, Or.inl (htrim.trans hname.symm)⟩
    rw [authorizeNetwork_of_granted hpath ⟨hfound, hlisted, Or.inl hnamed⟩] at hsame
    have hgranted := granted_of_authorizeNetwork hblank.not_superuser hsame
    rcases (namesForNetworks_withoutBlankUsers hname).mp hgranted.named with hnumber | hgroup
    · exact hblank.not_by_number hnumber
    · exact hblank.not_by_group hgroup
  · intro hnot
    refine authorizeNetwork_congr rfl fun heuid hlisted => ?_
    rw [namesForNetworks_withoutBlankUsers hname]
    constructor
    · rintro (⟨entry, hentry, hwrites⟩ | hgroup)
      · exact Or.inl (Caller.isInUsers_iff.mpr ⟨entry, hentry, Or.inr hwrites⟩)
      · exact Or.inr hgroup
    · rintro (huser | hgroup)
      · obtain ⟨entry, hentry, hblank | hwrites⟩ := Caller.isInUsers_iff.mp huser
        · by_contra hother
          rw [not_or] at hother
          exact hnot ⟨heuid, hlisted, ⟨entry, hentry, hblank.trans hname⟩, hother.1, hother.2⟩
        · exact Or.inl ⟨entry, hentry, hwrites⟩
      · exact Or.inr hgroup

end NamespaceList

/-! ## Capabilities -/

/-- The table grants a capability to one of the groups of a caller. -/
def CapabilityTable.GrantsToGroups (t : CapabilityTable) (c : Caller) (k : Capability) : Prop :=
  ∃ group ∈ c.namesOfGroups, ∃ entry ∈ t.ofGroup group, Text.sameIgnoringCase entry k.name = true

namespace Grant

variable {k : Capability} {c : Caller} {t : CapabilityTable} {r : CapabilityDemand}

/-- A table without blank users grants to a caller without a name what it grants to its
groups. -/
theorem grantsTo_withoutBlankUsers (hname : c.username = "") :
    t.withoutBlankUsers.GrantsTo c k ↔ t.GrantsToGroups c k := by
  have hnone : t.withoutBlankUsers.ofUser "" = [] := by
    rw [CapabilityTable.ofUser, CapabilityTable.withoutBlankUsers, SortedMap.get?_restrict,
      if_neg (by decide)]
    rfl
  rw [CapabilityTable.GrantsTo, hname, hnone]
  simp only [List.not_mem_nil, false_and, exists_false, false_or]
  exact Iff.rfl

theorem mem_forUser_withoutBlankUsers (hname : c.username = "") :
    k ∈ (forUser c t.withoutBlankUsers true r).set ↔
      (k.NamedIn r.add ∨ k.NamedIn r.existing) ∧ t.GrantsToGroups c k ∧ ¬ k.NamedIn r.drop := by
  rw [mem_forUser_enforced, grantsTo_withoutBlankUsers hname]

/-- The blank users of a table make no difference to a caller without a name exactly if one
of its groups is granted whatever it is given. -/
theorem forUser_withoutBlankUsers_iff (hname : c.username = "") :
    (forUser c t.withoutBlankUsers true r).set = (forUser c t true r).set ↔
      ∀ k ∈ (forUser c t true r).set, t.GrantsToGroups c k := by
  constructor
  · intro hsame k hk
    rw [← hsame, mem_forUser_withoutBlankUsers hname] at hk
    exact hk.2.1
  · intro hall
    apply (known_forUser true r).ext (known_forUser true r)
    intro k
    rw [mem_forUser_withoutBlankUsers hname]
    constructor
    · rintro ⟨hasked, hgroups, hkept⟩
      exact mem_forUser_enforced.mpr ⟨hasked, Or.inr hgroups, hkept⟩
    · intro hk
      have hgroups := hall k hk
      obtain ⟨hasked, -, hkept⟩ := mem_forUser_enforced.mp hk
      exact ⟨hasked, hgroups, hkept⟩

end Grant

/-! ## Ranges -/

namespace SubIdRange

variable {line content content' : String} {r : SubIdRange} {uid : UInt32}

/-- A range without a name is found by the number of its owner, which stands in its line. -/
theorem hasOwner_of_describes (hline : Describes line r) (hfor : r.SetAsideFor "" uid) :
    hasOwner line = true := by
  obtain ⟨start, count, rest, hfields, -⟩ := hline.fields
  have hwrites : Text.Writes r.owner uid := hfor.owner.resolve_left fun h => h.1 rfl
  rw [hasOwner, hfields]
  exact bne_iff_ne.mpr hwrites.trim_ne_empty

/-- No range is selected for a user without a name for the sake of a blank owner. -/
theorem first?_of_withoutBlankOwners (hcontent : WithoutBlankOwners content' content)
    (uid : UInt32) : first? (parse content') "" uid = first? (parse content) "" uid := by
  have hfind : ∀ lines : List String,
      (lines.filter hasOwner).find? (fun line => (read line).any fun r => r.isFor "" uid) =
        lines.find? fun line => (read line).any fun r => r.isFor "" uid := by
    intro lines
    rw [List.find?_filter]
    refine congrArg (fun q => lines.find? q) (funext fun line => ?_)
    cases hread : read line with
    | none => simp
    | some r =>
        by_cases hfor : r.isFor "" uid = true
        · simp [hfor, hasOwner_of_describes (read_eq_some_iff.mp hread) (isFor_iff.mp hfor)]
        · simp [hfor]
  rw [first?, first?, parse_eq, parse_eq, hcontent, List.find?_filterMap, List.find?_filterMap,
    hfind]

end SubIdRange

/-! ## Authorization -/

namespace Caller

open NamespaceList Grant SubIdRange

variable {c : Caller}

/-- Blank entries make a difference to a caller without a name in the two lists that are
searched for its name without further ado.  Its network is decided as without them unless it
is let in for one of them and for nothing else, and its capabilities are those without them
if and only if its groups are granted all that it is given.  The range that is set aside for
it is always the one that is found without them.  Where there are no blank entries it is
authorized by its number or by its groups. -/
theorem nameless_authorization_iff (hname : c.username = "") (s : NamespaceList) (h : Host)
    (p : Policy) (t : CapabilityTable) (r : CapabilityDemand) :
    (s.authorizeNetwork h p.withoutBlankUsers c = s.authorizeNetwork h p c ↔
        ¬ LetInByBlank s h p c) ∧
      ((forUser c t.withoutBlankUsers true r).set = (forUser c t true r).set ↔
        ∀ k ∈ (forUser c t true r).set, t.GrantsToGroups c k) ∧
      (∀ content content', WithoutBlankOwners content' content →
        first? (parse content') c.username c.uid = first? (parse content) c.username c.uid) ∧
      (∀ path, c.euid ≠ 0 →
        s.authorizeNetwork h p.withoutBlankUsers c = .ok (some path) →
          (∃ entry ∈ p.allowNetUsers, Text.Writes (Text.trim entry) c.uid) ∨
            c.isInGroups p.allowNetGroups = true) ∧
      (∀ k ∈ (forUser c t.withoutBlankUsers true r).set, t.GrantsToGroups c k) ∧
      ∀ rs range, first? rs c.username c.uid = some range → Text.Writes range.owner c.uid := by
  refine ⟨authorizeNetwork_withoutBlankUsers_iff hname, forUser_withoutBlankUsers_iff hname,
    ?_, ?_, ?_, ?_⟩
  · intro content content' hcontent
    rw [hname]
    exact first?_of_withoutBlankOwners hcontent c.uid
  · intro path heuid hauth
    exact (namesForNetworks_withoutBlankUsers hname).mp
      (granted_of_authorizeNetwork heuid hauth).named
  · intro k hk
    exact ((mem_forUser_withoutBlankUsers hname).mp hk).2.1
  · intro rs range hrange
    rw [first?] at hrange
    have hfor := List.find?_some hrange
    exact (isFor_iff.mp hfor).owner.resolve_left fun hnamed => hnamed.1 hname

/-! ## A caller whom blank entries authorize -/

/-- A caller for whose number the database has no user. -/
def unknownCaller : Caller := .ofCredentials ⟨4001, 4001, 4001, []⟩ ⟨[], []⟩

/-- A host with a network namespace. -/
def labHost : Host := .plain ⟨4001, 4001, 4001, []⟩ [["netns"]] [(["netns", "lab"], "")]

/-- A request to join that network namespace. -/
def labNetwork : NamespaceList := ⟨[⟨.network, some ⟨"/netns/lab"⟩⟩]⟩

/-- A policy that lists the network namespace, and a blank entry among the users. -/
def blankPolicy : Policy :=
  { Policy.default with allowNetnsPaths := [⟨"/netns/lab"⟩], allowNetUsers := [""] }

/-- A table that grants a capability to an empty name. -/
def blankTable : CapabilityTable := ⟨.ofList [("", ["CAP_BPF"])], .empty⟩

/-- A request for that capability. -/
def oneCapability : CapabilityDemand := { (default : CapabilityDemand) with add := ["CAP_BPF"] }

theorem letInByBlank_unknownCaller :
    LetInByBlank labNetwork labHost blankPolicy unknownCaller where
  not_superuser := by decide
  listed := ⟨⟨"/netns/lab"⟩, rfl, ⟨⟨.file (Text.octets ""), 0, 0, false⟩, by decide +kernel⟩,
    ⟨"/netns/lab"⟩, List.mem_singleton_self _, by decide +kernel⟩
  blank := ⟨"", List.mem_singleton_self _, by decide⟩
  not_by_number := by
    rintro ⟨entry, hentry, hwrites⟩
    obtain rfl := List.mem_singleton.mp hentry
    exact hwrites.trim_ne_empty rfl
  not_by_group := by decide

theorem nameless_authorization_iff_unknownNumber :
    unknownCaller.username = "" ∧
      labNetwork.authorizeNetwork labHost blankPolicy.withoutBlankUsers unknownCaller ≠
        labNetwork.authorizeNetwork labHost blankPolicy unknownCaller := by
  have hname : unknownCaller.username = "" := by decide
  obtain ⟨hnetwork, -⟩ := nameless_authorization_iff hname labNetwork labHost blankPolicy
    blankTable oneCapability
  exact ⟨hname, fun hsame => hnetwork.mp hsame letInByBlank_unknownCaller⟩

/-- A caller without a name joins a network namespace for a blank entry, and is given a
capability under an empty key. -/
theorem blank_entries_authorize :
    unknownCaller.username = "" ∧
      labNetwork.authorizeNetwork labHost blankPolicy unknownCaller =
        .ok (some ⟨"/netns/lab"⟩) ∧
      labNetwork.authorizeNetwork labHost blankPolicy.withoutBlankUsers unknownCaller =
        .error (.disallowed "you from joining network namespaces") ∧
      (forUser unknownCaller blankTable true oneCapability).set.names = ["CAP_BPF"] ∧
      (forUser unknownCaller blankTable.withoutBlankUsers true oneCapability).set = .empty := by
  decide +kernel

end Caller

end ContainerLaunch
