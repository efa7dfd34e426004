import ContainerLaunch.Proofs.Handoff.MapText
import ContainerLaunch.Proofs.Handoff.Publication
/-!
# A region holds what was published last

What the next stage reads from a region is the plan and the payload of the last
publication that succeeded.  A failed one leaves no trace, and a plan leaves
nothing in the region that a later, shorter one would not replace.
-/

namespace ContainerLaunch

namespace Region

variable {r : Region} {p : Plan} {payload : ByteArray}

/-! ## What is read -/

/-- A region from which the next stage reads a plan and a payload.  A map is read
from its text, and a path that is not there is empty. -/
structure Carries (r : Region) (p : Plan) (payload : ByteArray) : Prop where
  creationFlags : r.creationFlags = p.creationFlags
  mountPropagation : r.mountPropagation = p.mountPropagation
  noNewPrivs : r.noNewPrivs = p.noNewPrivs
  joinOnly : r.joinOnly = p.joinOnly
  capabilities : r.capabilities = p.capabilities
  targetUid : r.targetUid = p.targetUid
  targetGroups : r.targetGroups = p.targetGids
  keptDescriptors : r.keptDescriptors = p.keptDescriptors
  workingDirectoryFd : r.workingDirectoryFd = p.workingDirectoryFd.getD (-1)
  payloadRead : r.payloadRead = payload
  pathToJoin : ∀ kind, r.pathToJoin kind = ((p.joinPaths kind).map Path.text).getD ""
  uidMap : IdMapLine.ofText? r.uidMapText = some p.uidMap
  gidMap : IdMapLine.ofText? r.gidMapText = some p.gidMap

theorem textIn_octets {s : String} (hzero : '\x00' ∉ s.toList) :
    textIn (Text.octets s) = s := by
  rw [textIn, Text.beforeZero_octets hzero, Text.readLossy_octets]

theorem textIn_pathOctets {path : Option Path} (hfits : ∀ q, path = some q → Plan.FitsBuffer q) :
    textIn (pathOctets path) = (path.map Path.text).getD "" := by
  cases path with
  | none => exact textIn_octets (s := "") (by simp)
  | some q =>
      have hzero : '\x00' ∉ q.text.toList := by
        simpa [Path.hasNul] using (hfits q rfl).2
      exact textIn_octets hzero

/-- An array is read as far as values were put into it. -/
theorem arrayPrefix_overlaid {α : Type} [OfNat α 0] {values : List α} {size : Nat}
    (hfits : values.length ≤ size) (hsize : size < 0x80000000) :
    arrayPrefix (overlaid [] values) (Int32.ofNat values.length) size = values := by
  have hcount : (Int32.ofNat values.length).toNatClampNeg = values.length :=
    Int32.toNatClampNeg_ofNat_of_lt (by omega)
  rw [arrayPrefix, hcount, Nat.min_eq_left hfits]
  simp [overlaid]

theorem payloadRead_filled (hroom : payload.size < r.capacity) :
    (r.filled p payload).payloadRead = payload := by
  have hbuffer : (r.filled p payload).payload = payload := Octets.rewritten_eq _ _
  have hsize : min (r.filled p payload).payloadSize (r.filled p payload).capacity =
      payload.size := Nat.min_eq_left (Nat.le_of_lt hroom)
  have hpadded : Octets.padded payload payload.size = payload := by
    rw [Octets.padded, Nat.sub_self, Nat.fold_zero]
  simp only [payloadRead, hbuffer, hsize]
  rw [hpadded, ByteArray.extract_zero_size]

/-- A plan that fits is read back from a region to which it was written. -/
theorem carries_filled (hfits : p.Fits) (hroom : payload.size < r.capacity) :
    (r.filled p payload).Carries p payload where
  creationFlags := rfl
  mountPropagation := rfl
  noNewPrivs := rfl
  joinOnly := rfl
  capabilities := rfl
  targetUid := rfl
  targetGroups := arrayPrefix_overlaid hfits.targetGids (by decide)
  keptDescriptors := arrayPrefix_overlaid hfits.keptDescriptors (by decide)
  workingDirectoryFd := rfl
  payloadRead := payloadRead_filled hroom
  pathToJoin kind := by
    have hbuffer : (r.filled p payload).joinPaths kind = pathOctets (p.joinPaths kind) :=
      Octets.rewritten_eq _ _
    rw [pathToJoin, hbuffer, textIn_pathOctets (hfits.joinPaths kind)]
  uidMap := by
    have hbuffer : (r.filled p payload).uidMap = Text.octets (IdMapLine.text p.uidMap) :=
      Octets.rewritten_eq _ _
    rw [uidMapText, hbuffer, textIn_octets (IdMapLine.zero_not_mem_text _), IdMapLine.ofText?_text]
  gidMap := by
    have hbuffer : (r.filled p payload).gidMap = Text.octets (IdMapLine.text p.gidMap) :=
      Octets.rewritten_eq _ _
    rw [gidMapText, hbuffer, textIn_octets (IdMapLine.zero_not_mem_text _), IdMapLine.ofText?_text]

end Region

/-! ## Histories of publications -/

/-- A plan and a payload that are to be published, and the host as it then is. -/
structure Attempt where
  host : Host
  plan : Plan
  payload : ByteArray

namespace Attempt

/-- How an attempt ends, and the region that it leaves. -/
def perform (a : Attempt) (r : Region) : Except Error Unit × Region :=
  ((Region.publishing a.plan a.payload).perform r a.host).1

def succeeds (a : Attempt) (r : Region) : Bool :=
  (a.perform r).1.isOk

end Attempt

namespace Region

variable {r : Region} {a : Attempt}

/-- The region after several attempts, one after the other. -/
def after (r : Region) (as : List Attempt) : Region :=
  as.foldl (fun r a => (a.perform r).2) r

/-- The last of several attempts that succeeded, if one did. -/
def lastPublished (r : Region) : List Attempt → Option Attempt
  | [] => none
  | a :: rest =>
    (lastPublished (a.perform r).2 rest).or (if a.succeeds r then some a else none)

theorem succeeds_iff :
    a.succeeds r = true ↔ a.plan.Fits ∧ a.payload.size < r.capacity ∧
      ∃ h', (a.plan.keptDescriptors.forM keepOpen).perform a.host = (.ok (), h') := by
  constructor
  · intro hok
    cases hrun : (publishing a.plan a.payload).perform r a.host with
    | mk out h' =>
        obtain ⟨outcome, r'⟩ := out
        cases outcome with
        | error e =>
            simp [Attempt.succeeds, Attempt.perform, hrun, Except.isOk, Except.toBool] at hok
        | ok u =>
            obtain ⟨hfits, hroom, hopen, -⟩ := publishing_ok.mp hrun
            exact ⟨hfits, hroom, h', hopen⟩
  · rintro ⟨hfits, hroom, h', hopen⟩
    have hrun := publishing_ok.mpr ⟨hfits, hroom, hopen, rfl⟩
    simp [Attempt.succeeds, Attempt.perform, hrun, Except.isOk, Except.toBool]

/-- Whether an attempt succeeds does not depend on what is in the region. -/
theorem succeeds_congr {r₁ r₂ : Region} (hcapacity : r₁.capacity = r₂.capacity) :
    a.succeeds r₁ = a.succeeds r₂ := by
  rw [Bool.eq_iff_iff, succeeds_iff, succeeds_iff, hcapacity]

theorem perform_of_succeeds (hok : a.succeeds r = true) :
    (a.perform r).2 = r.filled a.plan a.payload := by
  obtain ⟨hfits, hroom, h', hopen⟩ := succeeds_iff.mp hok
  have hrun := publishing_ok.mpr ⟨hfits, hroom, hopen, rfl⟩
  rw [Attempt.perform, hrun]

theorem perform_of_not_succeeds (hfail : a.succeeds r = false) : (a.perform r).2 = r := by
  unfold Attempt.succeeds at hfail
  cases hrun : (publishing a.plan a.payload).perform r a.host with
  | mk out h' =>
      obtain ⟨outcome, r'⟩ := out
      simp only [Attempt.perform, hrun] at hfail ⊢
      cases outcome with
      | error e => exact eq_of_publishing_error hrun
      | ok u => simp [Except.isOk, Except.toBool] at hfail

/-- No attempt changes the capacity or what the native stage said. -/
theorem perform_capacity_stage (a : Attempt) (r : Region) :
    (a.perform r).2.capacity = r.capacity ∧ (a.perform r).2.stage = r.stage := by
  cases hok : a.succeeds r with
  | true =>
      rw [perform_of_succeeds hok]
      exact ⟨rfl, rfl⟩
  | false =>
      rw [perform_of_not_succeeds hok]
      exact ⟨rfl, rfl⟩

theorem after_capacity_stage (r : Region) (as : List Attempt) :
    (r.after as).capacity = r.capacity ∧ (r.after as).stage = r.stage := by
  induction as generalizing r with
  | nil => exact ⟨rfl, rfl⟩
  | cons a rest ih =>
      obtain ⟨hcapacity, hstage⟩ := perform_capacity_stage a r
      obtain ⟨hcapacity', hstage'⟩ := ih (a.perform r).2
      exact ⟨hcapacity'.trans hcapacity, hstage'.trans hstage⟩

/-- Without a successful attempt a region stays as it was. -/
theorem after_of_lastPublished_none {as : List Attempt} (hnone : r.lastPublished as = none) :
    r.after as = r := by
  induction as generalizing r with
  | nil => rfl
  | cons a rest ih =>
      simp only [lastPublished, Option.or_eq_none_iff, ite_eq_right_iff, reduceCtorEq, imp_false,
        Bool.not_eq_true] at hnone
      obtain ⟨hrest, hfail⟩ := hnone
      have hstep : (a.perform r).2 = r := perform_of_not_succeeds hfail
      rw [hstep] at hrest
      change (a.perform r).2.after rest = r
      rw [hstep]
      exact ih hrest

/-- After a successful attempt a region is as if it had been the only one. -/
theorem after_of_lastPublished_some {as : List Attempt} (hlast : r.lastPublished as = some a) :
    a.succeeds r = true ∧ r.after as = r.filled a.plan a.payload := by
  induction as generalizing r with
  | nil => cases hlast
  | cons b rest ih =>
      obtain ⟨hcapacity, hstage⟩ := perform_capacity_stage b r
      rw [lastPublished] at hlast
      change a.succeeds r = true ∧ (b.perform r).2.after rest = _
      -- a later success writes over what this one wrote; without one, this one was the last
      cases hrest : (b.perform r).2.lastPublished rest with
      | some c =>
          rw [hrest, Option.some_or] at hlast
          cases hlast
          obtain ⟨hok, hafter⟩ := ih hrest
          rw [hafter, succeeds_congr hcapacity.symm]
          exact ⟨hok, filled_congr hcapacity hstage⟩
      | none =>
          rw [hrest, Option.none_or] at hlast
          rw [after_of_lastPublished_none hrest]
          cases hok : b.succeeds r with
          | false => simp [hok] at hlast
          | true =>
              rw [hok, if_pos rfl] at hlast
              cases hlast
              exact ⟨hok, perform_of_succeeds hok⟩

/-- Whatever a region held and whatever attempts to publish were made on it, the next
stage reads the plan and the payload of the last attempt that succeeded, and the
region is the same as any other one in which that attempt alone was made.  Without
one the region is as it was.  Its capacity and what the native stage said never
change. -/
theorem region_holds_lastPublished (r : Region) (as : List Attempt) :
    (r.after as).capacity = r.capacity ∧ (r.after as).stage = r.stage ∧
      match r.lastPublished as with
      | none => r.after as = r
      | some a => (r.after as).Carries a.plan a.payload ∧
          ∀ r₀ : Region, r₀.capacity = r.capacity → r₀.stage = r.stage →
            r.after as = r₀.after [a] := by
  obtain ⟨hcapacity, hstage⟩ := after_capacity_stage r as
  refine ⟨hcapacity, hstage, ?_⟩
  split
  · next hnone => exact after_of_lastPublished_none hnone
  · next a hlast =>
    obtain ⟨hok, hafter⟩ := after_of_lastPublished_some hlast
    obtain ⟨hfits, hroom, -⟩ := succeeds_iff.mp hok
    rw [hafter]
    refine ⟨carries_filled hfits hroom, ?_⟩
    intro r₀ hcapacity₀ hstage₀
    have hok₀ : a.succeeds r₀ = true := by
      rw [succeeds_congr hcapacity₀]
      exact hok
    calc r.filled a.plan a.payload = r₀.filled a.plan a.payload :=
          filled_congr hcapacity₀.symm hstage₀.symm
      _ = r₀.after [a] := (perform_of_succeeds hok₀).symm

end Region
end ContainerLaunch
