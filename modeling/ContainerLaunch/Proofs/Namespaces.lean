import ContainerLaunch.Handoff.Plan
import ContainerLaunch.Namespace.Rules
/-!
# Lists of namespaces, kind by kind

A list that was read from a request may have several namespaces of one kind.
Everything that is asked about a kind depends only on the entries of that kind,
in order: `get?` and `has` on the first of them, the flags on all of them, and
the path that a plan gets on the last one that has a path.
-/

namespace ContainerLaunch

/-! ## Flags of kinds -/

namespace NamespaceKind

variable {k k' : NamespaceKind}

/-- Whether flags ask for a new namespace of a kind. -/
def IsCreatedBy (k : NamespaceKind) (flags : UInt32) : Prop :=
  flags &&& k.creationFlag = k.creationFlag

instance (k : NamespaceKind) (flags : UInt32) : Decidable (k.IsCreatedBy flags) :=
  inferInstanceAs (Decidable (_ = _))

theorem not_isCreatedBy_zero (k : NamespaceKind) : ¬ k.IsCreatedBy 0 := by
  cases k <;> decide

/-- The flags of two kinds have no bit in common. -/
theorem creationFlag_and_creationFlag (hne : k' ≠ k) :
    k'.creationFlag &&& k.creationFlag = 0 := by
  revert hne
  cases k <;> cases k' <;> decide

theorem isCreatedBy_or {flags : UInt32} :
    k.IsCreatedBy (flags ||| k'.creationFlag) ↔ k.IsCreatedBy flags ∨ k' = k := by
  have hdistrib : (flags ||| k'.creationFlag) &&& k.creationFlag =
      (flags &&& k.creationFlag) ||| (k'.creationFlag &&& k.creationFlag) := by
    apply UInt32.eq_of_toBitVec_eq
    ext i hi
    simp [Bool.and_or_distrib_right]
  have habsorb : (flags &&& k.creationFlag) ||| k.creationFlag = k.creationFlag := by
    apply UInt32.eq_of_toBitVec_eq
    ext i hi
    simp
  unfold IsCreatedBy
  rw [hdistrib]
  by_cases hkind : k' = k
  · subst hkind
    rw [UInt32.and_self, habsorb]
    simp
  · rw [creationFlag_and_creationFlag hkind, UInt32.or_zero]
    simp [hkind]

end NamespaceKind

namespace NamespaceList

variable {s : NamespaceList} {k k' : NamespaceKind}

/-- The entries of a kind, in order. -/
def ofKind (s : NamespaceList) (k : NamespaceKind) : List Namespace :=
  s.items.filter fun n => n.kind == k

/-- The path of the last entry of a kind that has one. -/
def lastPath (s : NamespaceList) (k : NamespaceKind) : Option Path :=
  ((s.ofKind k).filterMap Namespace.path).getLast?

theorem get?_eq_head? (s : NamespaceList) (k : NamespaceKind) :
    s.get? k = (s.ofKind k).head? := by
  simp [get?, ofKind]

theorem has_iff_ofKind : s.has k = true ↔ s.ofKind k ≠ [] := by
  rw [has_iff, ofKind, ne_eq, List.filter_eq_nil_iff]
  simp

theorem has_eq_false_iff : s.has k = false ↔ s.ofKind k = [] := by
  rw [← Bool.not_eq_true, has_iff_ofKind, ne_eq, Decidable.not_not]

theorem has_congr {t : NamespaceList} (hsame : t.ofKind k = s.ofKind k) : t.has k = s.has k := by
  rw [Bool.eq_iff_iff, has_iff_ofKind, has_iff_ofKind, hsame]

/-- A kind is created exactly if some namespace of it has no path. -/
theorem isCreatedBy_creationFlags (s : NamespaceList) (k : NamespaceKind) :
    k.IsCreatedBy s.creationFlags ↔ ∃ n ∈ s.ofKind k, n.path = none := by
  have hfold : ∀ (ns : List Namespace) (flags : UInt32),
      k.IsCreatedBy (ns.foldl (fun flags n => flags ||| n.kind.creationFlag) flags) ↔
        k.IsCreatedBy flags ∨ ∃ n ∈ ns, n.kind = k := by
    intro ns
    induction ns with
    | nil => simp
    | cons n rest ih =>
        intro flags
        rw [List.foldl_cons, ih, NamespaceKind.isCreatedBy_or]
        simp [or_assoc]
  rw [creationFlags, hfold]
  simp only [NamespaceKind.not_isCreatedBy_zero, false_or, ofKind, List.mem_filter,
    Option.isNone_iff_eq_none, beq_iff_eq]
  constructor
  · rintro ⟨n, ⟨hn, hpath⟩, hkind⟩
    exact ⟨n, ⟨hn, hkind⟩, hpath⟩
  · rintro ⟨n, ⟨hn, hkind⟩, hpath⟩
    exact ⟨n, ⟨hn, hpath⟩, hkind⟩

/-! ## Edits of a kind -/

/-- A new namespace that is added takes the place of the first one of its kind. -/
theorem ofKind_add_create (s : NamespaceList) (k : NamespaceKind) :
    (s.add (.create k)).ofKind k = .create k :: (s.ofKind k).tail := by
  have hadd : ∀ ns : List Namespace,
      (addTo (.create k) ns).filter (fun m => m.kind == k) =
        .create k :: (ns.filter fun m => m.kind == k).tail := by
    intro ns
    induction ns with
    | nil => simp [addTo, Namespace.create]
    | cons m rest ih =>
        have hkind : (Namespace.create k).kind = k := rfl
        by_cases hm : m.kind = k
        · simp [addTo, hkind, hm]
        · simp [addTo, hkind, hm, ih]
  exact hadd s.items

theorem ofKind_erase_self (s : NamespaceList) (k : NamespaceKind) : (s.erase k).ofKind k = [] := by
  simp [ofKind, erase]

/-! ## Edits that keep the other kinds -/

theorem filter_addTo {n : Namespace} (hne : n.kind ≠ k) (ns : List Namespace) :
    (addTo n ns).filter (fun m => m.kind == k) = ns.filter fun m => m.kind == k := by
  induction ns with
  | nil => simp [addTo, hne]
  | cons m rest ih =>
      by_cases hm : m.kind = n.kind
      · have hmk : m.kind ≠ k := hm ▸ hne
        simp [addTo, hm, hne]
      · simp only [addTo, hm, if_false, List.filter_cons, ih]

theorem ofKind_add {n : Namespace} (hne : n.kind ≠ k) : (s.add n).ofKind k = s.ofKind k :=
  filter_addTo hne s.items

theorem ofKind_erase (hne : k' ≠ k) : (s.erase k').ofKind k = s.ofKind k := by
  simp only [ofKind, erase, List.filter_filter]
  apply List.filter_congr
  intro n _
  by_cases hn : n.kind = k
  · simp [hn, hne.symm]
  · simp [hn]

theorem ofKind_withoutForbidden {allowed : Bool} (hne : k' ≠ k) :
    (s.withoutForbidden allowed k').1.ofKind k = s.ofKind k := by
  unfold withoutForbidden
  split
  · rfl
  · exact ofKind_erase hne

/-- The policy leaves the entries of every kind that it has no switch for; where
the launch ends, all that it did before keeps them too. -/
theorem ofKind_underPolicy {p : Policy} {suidInstall hostnameWanted : Bool}
    (hmount : .mount ≠ k) (hipc : .ipc ≠ k) (hpid : .pid ≠ k) (huts : .uts ≠ k) :
    (s.underPolicy p suidInstall hostnameWanted).namespaces.ofKind k = s.ofKind k := by
  have hbefore : ((((s.add (.create .mount)).withoutForbidden p.allowIpcNs .ipc).1
      ).withoutForbidden p.allowPidNs .pid).1.ofKind k = s.ofKind k := by
    rw [ofKind_withoutForbidden hpid, ofKind_withoutForbidden hipc, ofKind_add hmount]
  simp only [underPolicy]
  split
  · exact hbefore
  · rw [ofKind_withoutForbidden huts]
    exact hbefore

/-! ## What is asked about a kind -/

theorem networkPath_congr {t : NamespaceList} (hsame : t.ofKind .network = s.ofKind .network) :
    t.networkPath = s.networkPath := by
  simp only [networkPath, get?_eq_head?, hsame]

theorem lastPath_congr {t : NamespaceList} (hsame : t.ofKind k = s.ofKind k) :
    t.lastPath k = s.lastPath k := by
  simp only [lastPath, hsame]

/-- With at most one network namespace the first path is the last one. -/
theorem networkPath_eq_lastPath (hone : (s.ofKind .network).length ≤ 1) :
    s.networkPath = s.lastPath .network := by
  simp only [networkPath, lastPath, get?_eq_head?]
  match hs : s.ofKind .network with
  | [] => rfl
  | [n] => cases hp : n.path <;> simp [hp]
  | n :: m :: rest => simp [hs] at hone

/-- Through the directory of a process every kind of a list is joined, and no other. -/
theorem lastPath_relativeToProcess (s : NamespaceList) (k : NamespaceKind) :
    s.relativeToProcess.lastPath k = if s.has k then some (procPath k) else none := by
  have hpaths : ((s.relativeToProcess.ofKind k).filterMap Namespace.path) =
      (s.ofKind k).map fun _ => procPath k := by
    simp only [relativeToProcess, ofKind]
    induction s.items with
    | nil => rfl
    | cons n rest ih =>
        by_cases hn : n.kind = k
        · subst hn
          simpa using ih
        · simpa [hn] using ih
  rw [lastPath, hpaths, List.getLast?_map]
  cases hkind : s.ofKind k with
  | nil => simp [has_eq_false_iff.mpr hkind]
  | cons n rest =>
      have hhas : s.has k = true := has_iff_ofKind.mpr (by simp [hkind])
      simp [hhas, List.getLast?_cons]

end NamespaceList

namespace Plan

/-- Of several paths of a kind that are joined one after the other, the last one
stays. -/
theorem joinPaths_foldl_joining (js : List (NamespaceKind × Path)) (p : Plan)
    (k : NamespaceKind) :
    (js.foldl (fun p j => p.joining j.1 j.2) p).joinPaths k =
      ((js.filter fun j => j.1 == k).getLast?.map Prod.snd).or (p.joinPaths k) := by
  induction js generalizing p with
  | nil => simp
  | cons j rest ih =>
      rw [List.foldl_cons, ih]
      by_cases hj : j.1 = k
      · cases hlast : (rest.filter fun j => j.1 == k).getLast? with
        | none => simp [hj, joining, List.getLast?_cons, hlast]
        | some q => simp [hj, List.getLast?_cons, hlast]
      · have hk : k ≠ j.1 := fun e => hj e.symm
        simp [hj, joining, hk]

/-- The path that a plan gets for a kind is the last one in the list. -/
theorem joinPaths_withJoins (p : Plan) (s : NamespaceList) (k : NamespaceKind) :
    (p.withJoins s).joinPaths k = (s.lastPath k).or (p.joinPaths k) := by
  have hpaths : ((s.joins.filter fun j => j.1 == k).map Prod.snd) =
      (s.ofKind k).filterMap Namespace.path := by
    simp only [NamespaceList.joins, NamespaceList.ofKind]
    induction s.items with
    | nil => rfl
    | cons n rest ih =>
        cases hp : n.path with
        | none => by_cases hn : n.kind = k <;> simp_all
        | some q => by_cases hn : n.kind = k <;> simp_all
  rw [withJoins, joinPaths_foldl_joining, NamespaceList.lastPath, ← hpaths, List.getLast?_map]

/-- Joining namespaces changes nothing of a plan but its paths. -/
theorem withJoins_eq (p : Plan) (s : NamespaceList) :
    p.withJoins s = { p with joinPaths := (p.withJoins s).joinPaths } := by
  have hfold : ∀ (js : List (NamespaceKind × Path)) (p : Plan),
      js.foldl (fun p j => p.joining j.1 j.2) p =
        { p with joinPaths := (js.foldl (fun p j => p.joining j.1 j.2) p).joinPaths } := by
    intro js
    induction js with
    | nil => intro p; rfl
    | cons j rest ih => intro p; rw [List.foldl_cons, ih]; rfl
  exact hfold s.joins p

end Plan
end ContainerLaunch
