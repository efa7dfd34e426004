import ContainerLaunch.Handoff.Region
import ContainerLaunch.Proofs.Actions
/-!
# Publishing step by step

A publication may end with an error at its checks and at the descriptors of the
plan.  Both come before the first part of the region is written, so a region is
either left as it was or written as a whole; and what is written does not depend
on what was there.
-/

namespace ContainerLaunch

/-! ## Steps on a region and a host -/

namespace Publication

variable {α β : Type}

theorem perform_bind (a : Publication α) (f : α → Publication β) (r : Region) (h : Host) :
    (a >>= f).perform r h =
      match a.perform r h with
      | ((.ok x, r), h) => (f x).perform r h
      | ((.error e, r), h) => ((.error e, r), h) := by
  simp only [perform, ExceptT.run_bind, StateT.run_bind]
  generalize ((ExceptT.run a).run r).run h = x
  obtain ⟨⟨x | x, r'⟩, h'⟩ := x <;> rfl

theorem perform_onHost (a : Action α) (r : Region) (h : Host) :
    (onHost a).perform r h = (((a.perform h).1, r), (a.perform h).2) :=
  rfl

theorem perform_get (r : Region) (h : Host) :
    (get : Publication Region).perform r h = ((.ok r, r), h) :=
  rfl

end Publication

/-! ## What fits into a region -/

namespace Plan

variable {p : Plan}

/-- A path that fits into a buffer with a zero octet after it. -/
def FitsBuffer (path : Path) : Prop :=
  path.size ≤ maxPath ∧ path.hasNul = false

/-- A plan whose texts and lists fit into a region. -/
structure Fits (p : Plan) : Prop where
  uidMap : (IdMapLine.text p.uidMap).utf8ByteSize < IdMapLine.maxText - 1
  gidMap : (IdMapLine.text p.gidMap).utf8ByteSize < IdMapLine.maxText - 1
  joinPaths : ∀ kind path, p.joinPaths kind = some path → FitsBuffer path
  newuidmap : ∀ path, p.newuidmap = some path → FitsBuffer path
  newgidmap : ∀ path, p.newgidmap = some path → FitsBuffer path
  targetGids : p.targetGids.length ≤ maxGids
  keptDescriptors : p.keptDescriptors.length ≤ maxKept

theorem checkedText_ok {field text : String} {ms : List IdMapLine} :
    IdMapLine.checkedText field ms = .ok text ↔
      (IdMapLine.text ms).utf8ByteSize < IdMapLine.maxText - 1 ∧ IdMapLine.text ms = text := by
  unfold IdMapLine.checkedText
  by_cases hlong : IdMapLine.maxText - 1 ≤ (IdMapLine.text ms).utf8ByteSize
  · have hnot : ¬ (IdMapLine.text ms).utf8ByteSize < IdMapLine.maxText - 1 := by omega
    simp [hlong, hnot]
  · have hfits : (IdMapLine.text ms).utf8ByteSize < IdMapLine.maxText - 1 := by omega
    simp [hlong, hfits]

theorem checkBuffer_ok {field : String} {path : Path} {u : Unit} :
    checkBuffer field path = .ok u ↔ FitsBuffer path := by
  unfold checkBuffer FitsBuffer
  by_cases hlong : maxPath < path.size
  · simp [hlong, Nat.not_le.mpr hlong]
  · simp [hlong, Nat.not_lt.mp hlong]

theorem checkBuffer?_ok {field : String} {path : Option Path} {u : Unit} :
    checkBuffer? field path = .ok u ↔ ∀ p, path = some p → FitsBuffer p := by
  cases path with
  | none => simp [checkBuffer?]
  | some p => simp [checkBuffer?, checkBuffer_ok]

theorem checkJoins_ok {joins : List (NamespaceKind × Path)} {u : Unit} :
    checkJoins joins = .ok u ↔ ∀ j ∈ joins, FitsBuffer j.2 := by
  induction joins with
  | nil => simp [checkJoins]
  | cons j rest ih =>
      obtain ⟨kind, path⟩ := j
      rw [checkJoins, Error.bind_eq_ok]
      simp [checkBuffer_ok, ih]

theorem mem_joinList {kind : NamespaceKind} {path : Path} :
    (kind, path) ∈ p.joinList ↔ p.joinPaths kind = some path := by
  simp [joinList, NamespaceKind.mem_all]

/-- A plan is accepted exactly if all of it fits, and then the texts of its maps are
known. -/
theorem checkedTexts_ok {texts : String × String} :
    p.checkedTexts = .ok texts ↔
      p.Fits ∧ (IdMapLine.text p.uidMap, IdMapLine.text p.gidMap) = texts := by
  simp only [checkedTexts, Error.bind_eq_ok, checkedText_ok, checkBuffer?_ok, checkJoins_ok]
  constructor
  · rintro ⟨_, ⟨huid, rfl⟩, _, ⟨hgid, rfl⟩, _, hjoins, _, hnewuid, _, hnewgid, hlists⟩
    split at hlists
    · cases hlists
    · split at hlists
      · cases hlists
      · next hgids hkept =>
        refine ⟨⟨huid, hgid, ?_, hnewuid, hnewgid, by omega, by omega⟩, Except.ok.inj hlists⟩
        intro kind path hpath
        exact hjoins (kind, path) (mem_joinList.mpr hpath)
  · rintro ⟨hfits, rfl⟩
    have hgids : ¬ maxGids < p.targetGids.length := Nat.not_lt.mpr hfits.targetGids
    have hkept : ¬ maxKept < p.keptDescriptors.length := Nat.not_lt.mpr hfits.keptDescriptors
    refine ⟨_, ⟨hfits.uidMap, rfl⟩, _, ⟨hfits.gidMap, rfl⟩, (), ?_, (), hfits.newuidmap, (),
      hfits.newgidmap, ?_⟩
    · rintro ⟨kind, path⟩ hj
      exact hfits.joinPaths kind path (mem_joinList.mp hj)
    · rw [if_neg hgids, if_neg hkept]
      rfl

end Plan

/-! ## What a publication does -/

namespace Region

variable {r r' : Region} {p : Plan} {payload : ByteArray} {h h' : Host} {e : Error}

/-- The region after all parts of a plan and a payload were written to it. -/
def filled (r : Region) (p : Plan) (payload : ByteArray) : Region :=
  (((r.withNamespaces p).withPrivileges p (IdMapLine.text p.uidMap) (IdMapLine.text p.gidMap)
    ).withDescriptors p).withPayload payload

/-- Of what was in a region before, only its capacity and what the native stage said
are left. -/
theorem filled_congr {r₁ r₂ : Region} (hcapacity : r₁.capacity = r₂.capacity)
    (hstage : r₁.stage = r₂.stage) : r₁.filled p payload = r₂.filled p payload := by
  simp [filled, withNamespaces, withPrivileges, withDescriptors, withPayload, hcapacity, hstage]

/-- Nothing is written until the plan and the payload fit and every descriptor of the
plan was found open. -/
theorem perform_publishing (r : Region) (p : Plan) (payload : ByteArray) (h : Host) :
    (publishing p payload).perform r h =
      match p.checkedTexts with
      | .error e => ((.error e, r), h)
      | .ok _ =>
        if r.capacity ≤ payload.size then
          ((.error (.capacityExceeded "engine configuration" r.capacity), r), h)
        else
          match (p.keptDescriptors.forM keepOpen).perform h with
          | (.error e, h') => ((.error e, r), h')
          | (.ok (), h') => ((.ok (), r.filled p payload), h') := by
  unfold publishing
  rw [Publication.perform_bind, Publication.perform_onHost, Action.perform_ofExcept]
  cases hchecked : p.checkedTexts with
  | error e => rfl
  | ok texts =>
      obtain ⟨-, rfl⟩ := Plan.checkedTexts_ok.mp hchecked
      simp only [Publication.perform_bind, Publication.perform_get]
      by_cases hroom : r.capacity ≤ payload.size
      · simp only [hroom, if_true]
        rfl
      · simp only [hroom, if_false, Publication.perform_bind, Publication.perform_onHost]
        cases hkeep : (p.keptDescriptors.forM keepOpen).perform h with
        | mk outcome h' =>
            cases outcome with
            | error e => rfl
            | ok u => rfl

theorem publishing_ok :
    (publishing p payload).perform r h = ((.ok (), r'), h') ↔
      p.Fits ∧ payload.size < r.capacity ∧
        (p.keptDescriptors.forM keepOpen).perform h = (.ok (), h') ∧
        r.filled p payload = r' := by
  rw [perform_publishing]
  cases hchecked : p.checkedTexts with
  | error e =>
      have hnot : ¬ p.Fits := by
        intro hfits
        have hok := Plan.checkedTexts_ok.mpr ⟨hfits, rfl⟩
        rw [hchecked] at hok
        cases hok
      simp [hnot]
  | ok texts =>
      have hfits : p.Fits := (Plan.checkedTexts_ok.mp hchecked).1
      by_cases hroom : r.capacity ≤ payload.size
      · simp [hroom, Nat.not_lt.mpr hroom]
      · simp only [hroom, if_false, hfits, Nat.lt_of_not_le hroom, true_and]
        cases (p.keptDescriptors.forM keepOpen).perform h with
        | mk outcome h₁ =>
            cases outcome with
            | error e => simp
            | ok u =>
                simp only [Prod.mk.injEq, true_and]
                exact and_comm

/-- Where publishing fails, the region is as it was. -/
theorem eq_of_publishing_error
    (hrun : (publishing p payload).perform r h = ((.error e, r'), h')) : r' = r := by
  rw [perform_publishing] at hrun
  split at hrun
  · cases hrun
    rfl
  · split at hrun
    · cases hrun
      rfl
    · split at hrun
      · cases hrun
        rfl
      · cases hrun

theorem perform_publish (r : Region) (p : Plan) (payload : ByteArray) (h : Host) :
    (r.publish p payload).perform h =
      let run := (publishing p payload).perform r h
      (run.1.1.map fun _ => run.1.2, run.2) := by
  unfold publish
  rw [Action.perform_bind]
  exact Action.perform_ofExcept _ _

theorem publish_ok :
    (r.publish p payload).perform h = (.ok r', h') ↔
      (publishing p payload).perform r h = ((.ok (), r'), h') := by
  rw [perform_publish]
  generalize (publishing p payload).perform r h = run
  obtain ⟨⟨outcome, r₁⟩, h₁⟩ := run
  cases outcome with
  | error e => simp [Except.map]
  | ok u => simp [Except.map]

end Region
end ContainerLaunch
