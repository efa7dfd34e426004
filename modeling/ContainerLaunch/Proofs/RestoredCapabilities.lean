import ContainerLaunch.Proofs.Capabilities
/-!
# Restored capabilities

An instance keeps the names of the capabilities that it was given, and whoever joins it
asks for these again.  Each time the capabilities are given only as far as the caller at
hand may have them, so that a set is at most made smaller on its way, by whichever callers
it goes and however often.
-/

namespace ContainerLaunch

namespace CapabilitySet

variable {s t : CapabilitySet}

theorem isSubset_iff_diff : s.isSubset t = true ↔ s.diff t = empty := by
  rw [isSubset, beq_iff_eq, diff, empty, CapabilitySet.mk.injEq]

/-- A set in which every bit stands for a capability is a subset if its members are. -/
theorem Known.isSubset_iff (hs : s.Known) : s.isSubset t = true ↔ ∀ k, k ∈ s → k ∈ t := by
  rw [isSubset_iff_diff]
  constructor
  · intro hdiff k hk
    refine Decidable.not_not.mp fun hnot => ?_
    have hmem : k ∈ s.diff t := mem_diff.mpr ⟨hk, hnot⟩
    rw [hdiff] at hmem
    exact not_mem_empty k hmem
  · intro hsub
    apply (hs.diff t).ext known_empty
    intro k
    rw [mem_diff]
    exact iff_of_false (fun hk => hk.2 (hsub k hk.1)) (not_mem_empty k)

end CapabilitySet

/-! ## One renewal -/

/-- A demand that adds nothing and restores a set under the names of its members. -/
def CapabilityDemand.restoring (r : CapabilityDemand) (s : CapabilitySet) : CapabilityDemand :=
  { r with add := [], existing := s.names }

/-- A caller asks for a set again, under a table that may have to grant it, and perhaps
drops something of it. -/
structure Renewal where
  caller : Caller
  table : CapabilityTable
  enforced : Bool
  demand : CapabilityDemand

namespace Renewal

variable {k : Capability} {s : CapabilitySet}

def renew (q : Renewal) (s : CapabilitySet) : CapabilitySet :=
  (Grant.forUser q.caller q.table q.enforced (q.demand.restoring s)).set

/-- The capability may be kept: the table grants it, where it has to, and it is not
dropped. -/
def Keeps (q : Renewal) (k : Capability) : Prop :=
  (q.enforced = true → q.table.GrantsTo q.caller k) ∧ ¬ k.NamedIn q.demand.drop

theorem mem_renew {q : Renewal} : k ∈ q.renew s ↔ k ∈ s ∧ q.Keeps k := by
  rw [renew, Grant.mem_forUser]
  change (k.NamedIn [] ∨ k.NamedIn s.names) ∧ q.Keeps k ↔ _
  rw [Capability.namedIn_names, or_iff_right Capability.not_namedIn_nil]

theorem known_renew (q : Renewal) (s : CapabilitySet) : (q.renew s).Known :=
  Grant.known_forUser _ _

/-! ## Any number of renewals -/

/-- What is left of a set that goes through the hands of several callers. -/
def renewed (s : CapabilitySet) (qs : List Renewal) : CapabilitySet :=
  qs.foldl (fun s q => q.renew s) s

theorem mem_renewed {qs : List Renewal} :
    k ∈ renewed s qs ↔ k ∈ s ∧ ∀ q ∈ qs, q.Keeps k := by
  induction qs generalizing s with
  | nil => simp [renewed]
  | cons q rest ih =>
      change k ∈ renewed (q.renew s) rest ↔ _
      rw [ih, mem_renew, and_assoc, List.forall_mem_cons]

theorem known_renewed (hs : s.Known) (qs : List Renewal) : (renewed s qs).Known :=
  hs.foldl (fun s q _ => known_renew q s) qs

end Renewal

namespace Grant

variable {c : Caller} {t : CapabilityTable} {enforced : Bool} {r r' : CapabilityDemand}

/-- What was given once is given again. -/
theorem forUser_restoring (hdrop : r'.drop = r.drop) :
    (forUser c t enforced (r'.restoring (forUser c t enforced r).set)).set =
      (forUser c t enforced r).set := by
  apply (known_forUser enforced _).ext (known_forUser enforced r)
  intro k
  refine (Renewal.mem_renew (q := ⟨c, t, enforced, r'⟩)).trans ⟨fun hk => hk.1, fun hk => ?_⟩
  refine ⟨hk, ?_⟩
  rw [mem_forUser] at hk
  rw [Renewal.Keeps, hdrop]
  exact hk.2

/-- What a caller is given, it is given again if it asks for nothing else and drops the
same.  Any other caller that asks for it again, under any table, is given a subset of it.
After any number of renewals there is left of it what every single one of them kept, and
that is a subset again. -/
theorem restored_never_grows (c : Caller) (t : CapabilityTable) (enforced : Bool)
    (r : CapabilityDemand) :
    let given := (forUser c t enforced r).set
    (∀ r' : CapabilityDemand, r'.drop = r.drop →
        (forUser c t enforced (r'.restoring given)).set = given) ∧
      (∀ c' t' enforced' (r' : CapabilityDemand),
        (forUser c' t' enforced' (r'.restoring given)).set.isSubset given = true) ∧
      ∀ qs, (Renewal.renewed given qs).isSubset given = true ∧
        ∀ k, k ∈ Renewal.renewed given qs ↔ k ∈ given ∧ ∀ q ∈ qs, q.Keeps k := by
  intro given
  have hknown : given.Known := known_forUser enforced r
  refine ⟨fun r' hdrop => forUser_restoring hdrop, ?_, ?_⟩
  · intro c' t' enforced' r'
    rw [(known_forUser enforced' _).isSubset_iff]
    intro k hk
    exact ((Renewal.mem_renew (q := ⟨c', t', enforced', r'⟩)).mp hk).1
  · intro qs
    refine ⟨?_, fun k => Renewal.mem_renewed⟩
    rw [(Renewal.known_renewed hknown qs).isSubset_iff]
    intro k hk
    exact (Renewal.mem_renewed.mp hk).1

/-- A caller that drops one of three capabilities leaves two of them, and a caller whom the
table grants one of all three leaves that one. -/
example :
    (Renewal.renewed (Capability.named ["chown,kill,net_raw"])
      [⟨default, .empty, false, { (default : CapabilityDemand) with drop := ["chown"] }⟩,
        ⟨{ (default : Caller) with username := "alice" },
          ⟨.ofList [("alice", ["cap_kill"])], .empty⟩, true, default⟩]).names = ["CAP_KILL"] := by
  decide +kernel

end Grant
end ContainerLaunch
