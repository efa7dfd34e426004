import Mathlib.Algebra.GroupWithZero.Nat
import Mathlib.Data.String.Basic
import ContainerLaunch.Proofs.HelperPrograms
import ContainerLaunch.Proofs.Handoff.MapText
import ContainerLaunch.Proofs.Handoff.Publication
/-!
# Which texts fit into their buffers

The next stage finds texts in buffers of 4096 octets, each with a zero octet after it.  The path
of a namespace or of a helper in a plan may have all of its buffer but that octet.  The text of a
map, and the path of a helper when it is looked for, must be shorter by one more: of 4095 octets
it is said there that they are more than 4095.
-/

namespace ContainerLaunch

/-! ## Sizes of maps -/

namespace Text

/-- How many digits a number has in decimal. -/
def digitCount (n : UInt32) : Nat :=
  (Nat.toDigits 10 n.toNat).length

theorem utf8Len_toDigits (n : Nat) :
    String.utf8Len (Nat.toDigits 10 n) = (Nat.toDigits 10 n).length := by
  have hdigits : ∀ c ∈ Nat.toDigits 10 n, c.isDigit = true := isDigit_of_mem_toDigits
  generalize Nat.toDigits 10 n = cs at hdigits
  induction cs with
  | nil => rfl
  | cons c rest ih =>
      have hone : c.utf8Size = 1 := by
        have hc := hdigits c List.mem_cons_self
        simp only [Char.isDigit, Bool.and_eq_true, decide_eq_true_eq] at hc
        rw [Char.utf8Size_eq_one_iff]
        exact UInt32.le_trans hc.2 (by decide)
      rw [String.utf8Len_cons, hone, ih fun d hd => hdigits d (List.mem_cons_of_mem _ hd)]
      rfl

end Text

namespace IdMapLine

/-- The size of a line: its digits, two blanks between them and a line feed. -/
def width (m : IdMapLine) : Nat :=
  Text.digitCount m.containerId + Text.digitCount m.hostId + Text.digitCount m.size + 3

theorem utf8Len_fields (m : IdMapLine) : String.utf8Len (m.fields ++ ['\n']) = m.width := by
  have hblank : (' ').utf8Size = 1 := rfl
  have hfeed : ('\n').utf8Size = 1 := rfl
  simp only [fields, width, Text.digitCount, String.utf8Len_append, String.utf8Len_cons,
    String.utf8Len_nil, Text.toList_toString, Text.utf8Len_toDigits, hblank, hfeed]
  omega

/-- The size of a map is the sum of the sizes of its lines. -/
theorem size_text (ms : List IdMapLine) : (text ms).utf8ByteSize = (ms.map width).sum := by
  rw [← String.utf8Len_toList, toList_text, List.flatMap_map]
  induction ms with
  | nil => rfl
  | cons m rest ih =>
      rw [List.flatMap_cons, String.utf8Len_append, ih, utf8Len_fields]
      rfl

end IdMapLine

/-! ## Bounds -/

/-- A check lets a text pass if its size is within a bound, and otherwise says of the field that
it is longer than 4095 octets. -/
structure LimitsTo {α : Type} (bound size : Nat) (field : String) (outcome : Except Error α)
    (x : α) : Prop where
  accepted_iff : outcome = .ok x ↔ size ≤ bound
  refused_iff : outcome = .error (.capacityExceeded field 4095) ↔ bound < size

theorem limitsTo_of_eq {α : Type} {bound size : Nat} {field : String}
    {outcome : Except Error α} {x : α}
    (houtcome : outcome =
      if bound < size then .error (.capacityExceeded field 4095) else .ok x) :
    LimitsTo bound size field outcome x := by
  subst houtcome
  by_cases hlong : bound < size
  · rw [if_pos hlong]
    exact ⟨⟨nofun, fun hshort => absurd hlong (Nat.not_lt.mpr hshort)⟩,
      fun _ => hlong, fun _ => rfl⟩
  · rw [if_neg hlong]
    exact ⟨⟨fun _ => Nat.not_lt.mp hlong, fun _ => rfl⟩, nofun, fun h => absurd h hlong⟩

theorem checkedText_limitsTo (field : String) (ms : List IdMapLine) :
    LimitsTo 4094 (IdMapLine.text ms).utf8ByteSize field (IdMapLine.checkedText field ms)
      (IdMapLine.text ms) :=
  limitsTo_of_eq rfl

theorem find_limitsTo {h : Host} {name : String} {searchPath : Option String} {p : Path}
    (hsuitable : Helper.Suitable h name searchPath p) :
    LimitsTo 4094 p.size s!"{name} path" (Helper.find h name searchPath) p :=
  limitsTo_of_eq (Helper.find_of_suitable hsuitable)

namespace Plan

variable {p : Plan} {field : String} {path : Path} {limit : Nat}

theorem checkBuffer_limitsTo (field : String) (hnul : path.hasNul = false) :
    LimitsTo 4095 path.size field (checkBuffer field path) () := by
  apply limitsTo_of_eq
  unfold checkBuffer
  rw [hnul]
  rfl

/-- What is too long in a plan, and what is said of it. -/
inductive Overfull (p : Plan) : String → Nat → Prop
  | uidMap (hlong : 4094 < (IdMapLine.text p.uidMap).utf8ByteSize) : Overfull p "uid map" 4095
  | gidMap (hlong : 4094 < (IdMapLine.text p.gidMap).utf8ByteSize) : Overfull p "gid map" 4095
  | joinPath (kind : NamespaceKind) (path : Path) (hpath : p.joinPaths kind = some path)
      (hlong : 4095 < path.size) : Overfull p s!"{kind.name} namespace path" 4095
  | newuidmap (path : Path) (hpath : p.newuidmap = some path) (hlong : 4095 < path.size) :
      Overfull p "newuidmap path" 4095
  | newgidmap (path : Path) (hpath : p.newgidmap = some path) (hlong : 4095 < path.size) :
      Overfull p "newgidmap path" 4095
  | targetGids (hlong : 32 < p.targetGids.length) : Overfull p "target group IDs" 32
  | keptDescriptors (hlong : 1024 < p.keptDescriptors.length) :
      Overfull p "kept file descriptors" 1024

theorem checkedText_capacityExceeded {ms : List IdMapLine} {name : String}
    (hcheck : IdMapLine.checkedText name ms = .error (.capacityExceeded field limit)) :
    4094 < (IdMapLine.text ms).utf8ByteSize ∧ field = name ∧ limit = 4095 := by
  unfold IdMapLine.checkedText at hcheck
  split at hcheck
  · next hlong =>
    cases hcheck
    exact ⟨hlong, rfl, rfl⟩
  · cases hcheck

theorem checkBuffer_capacityExceeded {name : String}
    (hcheck : checkBuffer name path = .error (.capacityExceeded field limit)) :
    4095 < path.size ∧ field = name ∧ limit = 4095 := by
  unfold checkBuffer at hcheck
  split at hcheck
  · next hlong =>
    cases hcheck
    exact ⟨hlong, rfl, rfl⟩
  · split at hcheck <;> cases hcheck

theorem checkBuffer?_capacityExceeded {name : String} {found : Option Path}
    (hcheck : checkBuffer? name found = .error (.capacityExceeded field limit)) :
    ∃ path, found = some path ∧ 4095 < path.size ∧ field = name ∧ limit = 4095 := by
  cases found with
  | none => cases hcheck
  | some path => exact ⟨path, rfl, checkBuffer_capacityExceeded hcheck⟩

theorem checkJoins_capacityExceeded {joins : List (NamespaceKind × Path)}
    (hcheck : checkJoins joins = .error (.capacityExceeded field limit)) :
    ∃ j ∈ joins, 4095 < j.2.size ∧ field = s!"{j.1.name} namespace path" ∧ limit = 4095 := by
  induction joins with
  | nil => cases hcheck
  | cons j rest ih =>
      obtain ⟨kind, path⟩ := j
      rw [checkJoins, Error.bind_eq_error] at hcheck
      rcases hcheck with hfirst | ⟨_, -, hrest⟩
      · exact ⟨_, List.mem_cons_self, checkBuffer_capacityExceeded hfirst⟩
      · obtain ⟨j, hj, hlong⟩ := ih hrest
        exact ⟨j, List.mem_cons_of_mem _ hj, hlong⟩

/-- A plan is refused over a capacity only if it is too long where that is said. -/
theorem overfull_of_checkedTexts
    (hcheck : p.checkedTexts = .error (.capacityExceeded field limit)) :
    p.Overfull field limit := by
  simp only [checkedTexts, Error.bind_eq_error] at hcheck
  rcases hcheck with huid | ⟨_, -, hgid | ⟨_, -, hjoins | ⟨_, -, hnewuid | ⟨_, -, hnewgid |
    ⟨_, -, hlists⟩⟩⟩⟩⟩
  · obtain ⟨hlong, rfl, rfl⟩ := checkedText_capacityExceeded huid
    exact .uidMap hlong
  · obtain ⟨hlong, rfl, rfl⟩ := checkedText_capacityExceeded hgid
    exact .gidMap hlong
  · obtain ⟨⟨kind, path⟩, hj, hlong, rfl, rfl⟩ := checkJoins_capacityExceeded hjoins
    exact .joinPath kind path (mem_joinList.mp hj) hlong
  · obtain ⟨path, hpath, hlong, rfl, rfl⟩ := checkBuffer?_capacityExceeded hnewuid
    exact .newuidmap path hpath hlong
  · obtain ⟨path, hpath, hlong, rfl, rfl⟩ := checkBuffer?_capacityExceeded hnewgid
    exact .newgidmap path hpath hlong
  · split at hlists
    · next hgids =>
      cases hlists
      exact .targetGids hgids
    · split at hlists
      · next hkept =>
        cases hlists
        exact .keptDescriptors hkept
      · cases hlists

end Plan

/-! ## The bounds of all texts -/

/-- A map and a helper that is looked for may have 4094 octets, and the paths of a plan 4095;
what is longer is refused with the limit of 4095 octets.  A plan is accepted exactly if all of it
fits, and where one is refused over a capacity, something in it is too long: a path, or a list of
numbers, is longer than the limit that is reported, while a map may just reach it. -/
theorem texts_bounded (field : String) (ms : List IdMapLine) (path : Path) (h : Host)
    (name : String) (searchPath : Option String) (helper : Path) (p : Plan) :
    LimitsTo 4094 (IdMapLine.text ms).utf8ByteSize field (IdMapLine.checkedText field ms)
      (IdMapLine.text ms) ∧
    (Helper.Suitable h name searchPath helper →
      LimitsTo 4094 helper.size s!"{name} path" (Helper.find h name searchPath) helper) ∧
    (∀ field limit, Helper.find h name searchPath = .error (.capacityExceeded field limit) →
      field = s!"{name} path" ∧ limit = 4095 ∧
        ∃ p, Helper.Suitable h name searchPath p ∧ 4094 < p.size) ∧
    (path.hasNul = false → LimitsTo 4095 path.size field (Plan.checkBuffer field path) ()) ∧
    ((∃ texts, p.checkedTexts = .ok texts) ↔ p.Fits) ∧
    ∀ field limit, p.checkedTexts = .error (.capacityExceeded field limit) →
      p.Overfull field limit := by
  refine ⟨checkedText_limitsTo field ms, find_limitsTo, ?_, Plan.checkBuffer_limitsTo field, ?_,
    fun field limit => Plan.overfull_of_checkedTexts⟩
  · intro field limit hfind
    obtain ⟨p, hsuitable, hlong, hfield, hlimit⟩ := Helper.find_capacityExceeded hfind
    exact ⟨hfield, hlimit, p, hsuitable, hlong⟩
  · constructor
    · rintro ⟨texts, htexts⟩
      exact (Plan.checkedTexts_ok.mp htexts).1
    · intro hfits
      exact ⟨_, Plan.checkedTexts_ok.mpr ⟨hfits, rfl⟩⟩

/-! ## A helper that fits, and a map of just the size that is reported -/

/-- A host with one helper. -/
def newuidmapHost : Host :=
  let plain := Host.plain ⟨1000, 1000, 1000, []⟩ [["bin"]] []
  { plain with tree := plain.tree.put ["bin", "newuidmap"] ⟨.file .empty, 0, 0, true⟩ }

theorem texts_bounded_newuidmap :
    Helper.Suitable newuidmapHost "newuidmap" (some "/sbin:/bin") ⟨"/bin/newuidmap"⟩ ∧
      Helper.find newuidmapHost "newuidmap" (some "/sbin:/bin") = .ok ⟨"/bin/newuidmap"⟩ ∧
      Plan.checkBuffer "newuidmap path" ⟨"/bin/newuidmap"⟩ = .ok () := by
  obtain ⟨p, hfind, rfl⟩ : ∃ p, Helper.find newuidmapHost "newuidmap" (some "/sbin:/bin") =
      .ok p ∧ p = ⟨"/bin/newuidmap"⟩ := Error.exists_ok_of_map (by decide +kernel)
  have hsuitable := Helper.suitable_of_find hfind
  obtain ⟨-, hhelper, -, hpath, -⟩ := texts_bounded "newuidmap path" [] ⟨"/bin/newuidmap"⟩
    newuidmapHost "newuidmap" (some "/sbin:/bin") ⟨"/bin/newuidmap"⟩ .empty
  exact ⟨hsuitable, (hhelper hsuitable).accepted_iff.mpr (by decide),
    (hpath (by decide)).accepted_iff.mpr (by decide)⟩

/-- A map of 4095 octets is refused as one of more than 4095, although it would leave room for
the octet after it. -/
theorem full_map_refused :
    (IdMapLine.text (List.replicate 585 ⟨0, 0, 10⟩)).utf8ByteSize = 4095 ∧
      IdMapLine.checkedText "uid map" (List.replicate 585 ⟨0, 0, 10⟩) =
        .error (.capacityExceeded "uid map" 4095) := by
  have hsize : (IdMapLine.text (List.replicate 585 ⟨0, 0, 10⟩)).utf8ByteSize = 4095 := by
    have hwidth : IdMapLine.width ⟨0, 0, 10⟩ = 7 := by decide
    rw [IdMapLine.size_text, List.map_replicate, List.sum_replicate_nat, hwidth]
  refine ⟨hsize, (checkedText_limitsTo _ _).refused_iff.mpr ?_⟩
  rw [hsize]
  decide

end ContainerLaunch
