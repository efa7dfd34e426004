import ContainerLaunch.Proofs.Namespaces
import Mathlib.Data.List.Induction
/-!
# Lists of namespaces as maps

A list that is made by adding, removing and redirecting namespaces is a map from kinds to
namespaces that remembers in which order they came.  What it holds is said by the history
of the edits alone: of a kind, the last edit that added or removed it counts, and the
namespaces stand in the order in which their kinds came, a kind that is replaced keeping
its place.  Lists that were read from a request may have several namespaces of a kind and
are no such maps.
-/

namespace ContainerLaunch

namespace NamespaceList

/-- An edit of a list of namespaces. -/
inductive Edit where
  | add (n : Namespace)
  | remove (k : NamespaceKind)
  | relativeToProcess
  deriving DecidableEq, Repr

namespace Edit

/-- What an edit makes of a list. -/
def apply (s : NamespaceList) : Edit → NamespaceList
  | .add n => s.add n
  | .remove k => (s.remove k).2
  | .relativeToProcess => s.relativeToProcess

/-- An edit adds or removes a kind. -/
def Settles (k : NamespaceKind) : Edit → Prop
  | .add n => n.kind = k
  | .remove k' => k' = k
  | .relativeToProcess => False

end Edit

variable {s : NamespaceList} {k : NamespaceKind} {n m : Namespace} {e x : Edit}
  {edits later : List Edit} {i j : Nat}

/-- A list after several edits. -/
def afterAll (s : NamespaceList) (edits : List Edit) : NamespaceList :=
  edits.foldl Edit.apply s

theorem afterAll_concat : s.afterAll (edits ++ [e]) = e.apply (s.afterAll edits) := by
  simp [afterAll]

/-! ## What a history says -/

/-- The last edit that adds or removes a kind, and the edits after it. -/
def LastFor (k : NamespaceKind) (edits : List Edit) (e : Edit) (later : List Edit) : Prop :=
  (∃ earlier, edits = earlier ++ e :: later) ∧ e.Settles k ∧ ∀ x ∈ later, ¬ x.Settles k

/-- A history leaves a namespace for a kind: the last edit for the kind added it, and if the
list was redirected since then, its path leads through the directory of a process. -/
def Leaves (edits : List Edit) (k : NamespaceKind) (n : Namespace) : Prop :=
  ∃ m later, LastFor k edits (.add m) later ∧
    n = if .relativeToProcess ∈ later then .enter k ⟨"ns/" ++ k.entryName⟩ else m

/-- The edit with which a kind came: it was added though it was not there, and was not removed
since. -/
def CameWith (edits : List Edit) (k : NamespaceKind) (i : Nat) : Prop :=
  ∃ earlier n later, edits = earlier ++ .add n :: later ∧ earlier.length = i ∧ n.kind = k ∧
    (∀ m, ¬ Leaves earlier k m) ∧ .remove k ∉ later

/-- One kind came before another one. -/
def CameBefore (edits : List Edit) (k k' : NamespaceKind) : Prop :=
  ∀ i j, CameWith edits k i → CameWith edits k' j → i < j

/-! ### One more edit -/

/-- One more edit is the last one for a kind, or leaves the last one what it was. -/
theorem lastFor_concat :
    LastFor k (edits ++ [x]) e later ↔
      (x.Settles k ∧ e = x ∧ later = []) ∨
        (¬ x.Settles k ∧ ∃ between, LastFor k edits e between ∧ later = between ++ [x]) := by
  constructor
  · rintro ⟨⟨earlier, heq⟩, he, hlater⟩
    rcases List.eq_nil_or_concat later with rfl | ⟨between, y, rfl⟩
    · obtain ⟨rfl, hx⟩ := List.append_inj' heq rfl
      obtain rfl : x = e := by simpa using hx
      exact .inl ⟨he, rfl, rfl⟩
    · rw [List.concat_eq_append] at heq hlater ⊢
      rw [← List.cons_append, ← List.append_assoc] at heq
      obtain ⟨rfl, hx⟩ := List.append_inj' heq rfl
      obtain rfl : x = y := by simpa using hx
      refine .inr ⟨hlater x (by simp), between, ⟨⟨earlier, rfl⟩, he, ?_⟩, rfl⟩
      exact fun z hz => hlater z (List.mem_append_left _ hz)
  · rintro (⟨hx, rfl, rfl⟩ | ⟨hx, between, ⟨⟨earlier, rfl⟩, he, hbetween⟩, rfl⟩)
    · exact ⟨⟨edits, rfl⟩, hx, by simp⟩
    · refine ⟨⟨earlier, by simp⟩, he, fun z hz => ?_⟩
      rcases List.mem_append.mp hz with hz | hz
      · exact hbetween z hz
      · rwa [List.mem_singleton.mp hz]

theorem not_leaves_nil : ¬ Leaves [] k n := by
  rintro ⟨m, later, ⟨⟨earlier, heq⟩, -⟩, -⟩
  exact List.append_ne_nil_of_right_ne_nil _ (List.cons_ne_nil _ _) heq.symm

theorem leaves_concat_add (hm : m.kind = k) : Leaves (edits ++ [.add m]) k n ↔ n = m := by
  constructor
  · rintro ⟨m', later, hlast, rfl⟩
    rcases lastFor_concat.mp hlast with ⟨-, heq, rfl⟩ | ⟨hnot, -⟩
    · simpa using heq
    · exact absurd hm hnot
  · rintro rfl
    exact ⟨n, [], lastFor_concat.mpr (.inl ⟨hm, rfl, rfl⟩), by simp⟩

theorem not_leaves_concat_remove : ¬ Leaves (edits ++ [.remove k]) k n := by
  rintro ⟨m, later, hlast, -⟩
  rcases lastFor_concat.mp hlast with ⟨-, heq, -⟩ | ⟨hnot, -⟩
  · cases heq
  · exact hnot rfl

/-- An edit for another kind leaves a kind what it was. -/
theorem leaves_concat_other (hx : ¬ x.Settles k) (hredirect : x ≠ .relativeToProcess) :
    Leaves (edits ++ [x]) k n ↔ Leaves edits k n := by
  constructor
  · rintro ⟨m, later, hlast, rfl⟩
    rcases lastFor_concat.mp hlast with ⟨hsettles, -⟩ | ⟨-, between, hbetween, rfl⟩
    · exact absurd hsettles hx
    · exact ⟨m, between, hbetween, by simp [hredirect.symm]⟩
  · rintro ⟨m, between, hlast, rfl⟩
    refine ⟨m, between ++ [x], lastFor_concat.mpr (.inr ⟨hx, between, hlast, rfl⟩), ?_⟩
    simp [hredirect.symm]

theorem leaves_concat_relativeToProcess :
    Leaves (edits ++ [.relativeToProcess]) k n ↔
      (∃ m, Leaves edits k m) ∧ n = .enter k ⟨"ns/" ++ k.entryName⟩ := by
  constructor
  · rintro ⟨m, later, hlast, rfl⟩
    rcases lastFor_concat.mp hlast with ⟨hsettles, -⟩ | ⟨-, between, hbetween, rfl⟩
    · exact hsettles.elim
    · exact ⟨⟨_, m, between, hbetween, rfl⟩, by simp⟩
  · rintro ⟨⟨_, m, between, hlast, -⟩, rfl⟩
    exact ⟨m, _, lastFor_concat.mpr (.inr ⟨id, between, hlast, rfl⟩), by simp⟩

theorem CameWith.lt_length (hcame : CameWith edits k i) : i < edits.length := by
  obtain ⟨earlier, n, later, rfl, rfl, -⟩ := hcame
  simp

/-- A kind came with the last edit, or with one before it and the last one did not remove it. -/
theorem cameWith_concat :
    CameWith (edits ++ [x]) k i ↔
      (∃ n, x = .add n ∧ n.kind = k ∧ (∀ m, ¬ Leaves edits k m) ∧ i = edits.length) ∨
        (x ≠ .remove k ∧ CameWith edits k i) := by
  constructor
  · rintro ⟨earlier, n, later, heq, rfl, hn, hbefore, hlater⟩
    rcases List.eq_nil_or_concat later with rfl | ⟨between, y, rfl⟩
    · obtain ⟨rfl, hx⟩ := List.append_inj' heq rfl
      obtain rfl : x = .add n := by simpa using hx
      exact .inl ⟨n, rfl, hn, hbefore, rfl⟩
    · rw [List.concat_eq_append] at heq hlater
      rw [← List.cons_append, ← List.append_assoc] at heq
      obtain ⟨rfl, hx⟩ := List.append_inj' heq rfl
      obtain rfl : x = y := by simpa using hx
      simp only [List.mem_append, List.mem_singleton, not_or] at hlater
      exact .inr ⟨fun h => hlater.2 h.symm, earlier, n, between, rfl, rfl, hn, hbefore, hlater.1⟩
  · rintro (⟨n, rfl, hn, hbefore, rfl⟩ | ⟨hx, earlier, n, later, rfl, rfl, hn, hbefore, hlater⟩)
    · exact ⟨edits, n, [], rfl, rfl, hn, hbefore, by simp⟩
    · refine ⟨earlier, n, later ++ [x], by simp, rfl, hn, hbefore, ?_⟩
      simpa [hlater] using hx.symm

/-! ## What an edit does -/

/-- The kinds of a list, in order. -/
def kinds (s : NamespaceList) : List NamespaceKind :=
  s.items.map Namespace.kind

theorem mem_kinds_iff : k ∈ s.kinds ↔ s.has k = true := by
  simp [kinds, has]

theorem has_iff_get? : s.has k = true ↔ ∃ n, s.get? k = some n := by
  rw [has_iff_ofKind, get?_eq_head?]
  cases s.ofKind k <;> simp

theorem get?_add_self (s : NamespaceList) (n : Namespace) : (s.add n).get? n.kind = some n := by
  obtain ⟨items⟩ := s
  simp only [get?, add]
  induction items with
  | nil => simp [addTo]
  | cons m rest ih =>
      by_cases hm : m.kind = n.kind
      · simp [addTo, hm]
      · simpa [addTo, hm] using ih

theorem get?_add_of_ne (hne : n.kind ≠ k) : (s.add n).get? k = s.get? k := by
  rw [get?_eq_head?, get?_eq_head?, ofKind_add hne]

theorem get?_erase_self (s : NamespaceList) (k : NamespaceKind) : (s.erase k).get? k = none := by
  rw [get?_eq_head?, ofKind_erase_self]
  rfl

theorem get?_erase_of_ne {k' : NamespaceKind} (hne : k' ≠ k) : (s.erase k').get? k = s.get? k := by
  rw [get?_eq_head?, get?_eq_head?, ofKind_erase hne]

theorem get?_relativeToProcess (s : NamespaceList) (k : NamespaceKind) :
    s.relativeToProcess.get? k = (s.get? k).map fun _ => .enter k (procPath k) := by
  simp only [get?, relativeToProcess, List.find?_map, Function.comp_def]
  cases hfind : s.items.find? fun n => n.kind == k with
  | none => rfl
  | some n =>
      obtain rfl : n.kind = k := by simpa using List.find?_some hfind
      rfl

theorem kinds_add (s : NamespaceList) (n : Namespace) :
    (s.add n).kinds = if n.kind ∈ s.kinds then s.kinds else s.kinds ++ [n.kind] := by
  obtain ⟨items⟩ := s
  simp only [kinds, add]
  induction items with
  | nil => simp [addTo]
  | cons m rest ih =>
      by_cases hm : m.kind = n.kind
      · simp [addTo, hm]
      · have hmn : n.kind ≠ m.kind := fun h => hm h.symm
        simp only [addTo, hm, if_false, List.map_cons, ih, List.mem_cons, hmn, false_or]
        by_cases hmem : n.kind ∈ rest.map Namespace.kind <;> simp [hmem]

theorem kinds_erase (s : NamespaceList) (k : NamespaceKind) :
    (s.erase k).kinds = s.kinds.filter (· != k) := by
  simp only [kinds, erase, List.filter_map]
  rfl

theorem kinds_relativeToProcess (s : NamespaceList) : s.relativeToProcess.kinds = s.kinds := by
  simp [kinds, relativeToProcess]

/-! ## What a list holds after its edits -/

theorem get?_afterAll : ((empty.afterAll edits).get? k = some n) ↔ Leaves edits k n := by
  induction edits using List.reverseRecOn generalizing n with
  | nil => simp [afterAll, empty, get?, not_leaves_nil]
  | append_singleton edits e ih =>
      rw [afterAll_concat]
      cases e with
      | add m =>
          by_cases hm : m.kind = k
          · subst hm
            rw [leaves_concat_add rfl, Edit.apply, get?_add_self, Option.some.injEq, eq_comm]
          · rw [leaves_concat_other (x := .add m) hm Edit.noConfusion, Edit.apply,
              get?_add_of_ne hm, ih]
      | remove k' =>
          rw [Edit.apply, remove_eq]
          by_cases hk : k' = k
          · subst hk
            simp [get?_erase_self, not_leaves_concat_remove]
          · rw [leaves_concat_other (x := .remove k') hk Edit.noConfusion, get?_erase_of_ne hk, ih]
      | relativeToProcess =>
          rw [leaves_concat_relativeToProcess, Edit.apply, get?_relativeToProcess, procPath_eq]
          simp only [← ih, Option.map_eq_some_iff, exists_and_right]
          exact and_congr_right fun _ => eq_comm

theorem has_afterAll : (empty.afterAll edits).has k = true ↔ ∃ n, Leaves edits k n := by
  simp only [has_iff_get?, get?_afterAll]

theorem nodup_kinds_afterAll (edits : List Edit) : (empty.afterAll edits).kinds.Nodup := by
  induction edits using List.reverseRecOn with
  | nil => exact List.nodup_nil
  | append_singleton edits e ih =>
      rw [afterAll_concat]
      cases e with
      | add m =>
          rw [Edit.apply, kinds_add]
          split
          · exact ih
          · next hnew => exact List.nodup_append.mpr ⟨ih, by simp, by grind⟩
      | remove k =>
          rw [Edit.apply, remove_eq, kinds_erase]
          exact ih.filter _
      | relativeToProcess => rwa [Edit.apply, kinds_relativeToProcess]

/-! ## The order of the kinds -/

theorem exists_leaves_concat :
    (∃ n, Leaves (edits ++ [x]) k n) ↔
      (∃ n, x = .add n ∧ n.kind = k) ∨ (x ≠ .remove k ∧ ∃ n, Leaves edits k n) := by
  cases x with
  | add m =>
      by_cases hm : m.kind = k
      · simp [leaves_concat_add hm, hm]
      · simp [leaves_concat_other (x := .add m) hm Edit.noConfusion, hm]
  | remove k' =>
      by_cases hk : k' = k
      · subst hk
        simp [not_leaves_concat_remove]
      · simp [leaves_concat_other (x := .remove k') hk Edit.noConfusion, hk]
  | relativeToProcess => simp [leaves_concat_relativeToProcess]

/-- A kind that came is there. -/
theorem CameWith.leaves (hcame : CameWith edits k i) : ∃ n, Leaves edits k n := by
  induction edits using List.reverseRecOn with
  | nil => exact absurd hcame.lt_length (Nat.not_lt_zero i)
  | append_singleton edits x ih =>
      rw [exists_leaves_concat]
      rcases cameWith_concat.mp hcame with ⟨n, hx, hn, -⟩ | ⟨hx, hcame⟩
      · exact .inl ⟨n, hx, hn⟩
      · exact .inr ⟨hx, ih hcame⟩

/-- A kind that is there keeps the edit with which it came, unless it is removed. -/
theorem cameWith_concat_of_leaves (hthere : ∃ n, Leaves edits k n) :
    CameWith (edits ++ [x]) k i ↔ x ≠ .remove k ∧ CameWith edits k i := by
  obtain ⟨n, hn⟩ := hthere
  rw [cameWith_concat, or_iff_right]
  rintro ⟨-, -, -, hnot, -⟩
  exact hnot n hn

/-- A kind that is not there can only come now. -/
theorem cameWith_concat_of_not_leaves (hnot : ¬ ∃ n, Leaves edits k n) :
    CameWith (edits ++ [x]) k i ↔ (∃ n, x = .add n ∧ n.kind = k) ∧ i = edits.length := by
  have hnever : ¬ (x ≠ .remove k ∧ CameWith edits k i) := fun hcame => hnot hcame.2.leaves
  rw [cameWith_concat, or_iff_left hnever]
  constructor
  · rintro ⟨n, hx, hn, -, hi⟩
    exact ⟨⟨n, hx, hn⟩, hi⟩
  · rintro ⟨⟨n, hx, hn⟩, hi⟩
    exact ⟨n, hx, hn, not_exists.mp hnot, hi⟩

/-- A kind that is there came with exactly one edit. -/
theorem existsUnique_cameWith (hthere : ∃ n, Leaves edits k n) : ∃! i, CameWith edits k i := by
  induction edits using List.reverseRecOn with
  | nil =>
      obtain ⟨n, hn⟩ := hthere
      exact absurd hn not_leaves_nil
  | append_singleton edits x ih =>
      by_cases hbefore : ∃ n, Leaves edits k n
      · have hkept : x ≠ .remove k := by
          rintro rfl
          obtain ⟨n, hn⟩ := hthere
          exact not_leaves_concat_remove hn
        simpa only [cameWith_concat_of_leaves hbefore, hkept, ne_eq, not_false_eq_true,
          true_and] using ih hbefore
      · have hadded : ∃ n, x = .add n ∧ n.kind = k :=
          (exists_leaves_concat.mp hthere).resolve_right fun hkept => hbefore hkept.2
        simp only [cameWith_concat_of_not_leaves hbefore, hadded, true_and]
        exact existsUnique_eq

/-- The kinds stand in the order in which they came. -/
theorem ordered_afterAll (edits : List Edit) :
    (empty.afterAll edits).kinds.Pairwise (CameBefore edits) := by
  induction edits using List.reverseRecOn with
  | nil => exact .nil
  | append_singleton edits x ih =>
      have hthere : ∀ k ∈ (empty.afterAll edits).kinds, ∃ n, Leaves edits k n := by
        intro k hk
        rwa [mem_kinds_iff, has_afterAll] at hk
      -- kinds that were there before keep their order, whatever the last edit was
      have hkept : (empty.afterAll edits).kinds.Pairwise (CameBefore (edits ++ [x])) := by
        refine ih.imp_of_mem fun hk hk' hbefore i j hi hj => ?_
        rw [cameWith_concat_of_leaves (hthere _ hk)] at hi
        rw [cameWith_concat_of_leaves (hthere _ hk')] at hj
        exact hbefore i j hi.2 hj.2
      rw [afterAll_concat]
      cases x with
      | add m =>
          rw [Edit.apply, kinds_add]
          split
          · exact hkept
          · next hnew =>
            rw [mem_kinds_iff, has_afterAll] at hnew
            refine List.pairwise_append.mpr ⟨hkept, List.pairwise_singleton _ _, ?_⟩
            intro k hk k' hk' i j hi hj
            rw [List.mem_singleton.mp hk', cameWith_concat_of_not_leaves hnew] at hj
            rw [cameWith_concat_of_leaves (hthere k hk)] at hi
            exact hj.2 ▸ hi.2.lt_length
      | remove k =>
          rw [Edit.apply, remove_eq, kinds_erase]
          exact hkept.filter _
      | relativeToProcess => rwa [Edit.apply, kinds_relativeToProcess]

/-! ## Flags and paths -/

/-- In a list with one namespace of a kind, that one is found. -/
theorem mem_items_iff (hone : s.kinds.Nodup) : n ∈ s.items ↔ s.get? n.kind = some n := by
  obtain ⟨items⟩ := s
  simp only [kinds] at hone
  simp only [get?]
  induction items with
  | nil => simp
  | cons m rest ih =>
      obtain ⟨hm, hrest⟩ := List.nodup_cons.mp hone
      by_cases hkind : m.kind = n.kind
      · have hnot : n ∉ rest := fun hn => hm (hkind ▸ List.mem_map_of_mem hn)
        simp [hkind, hnot, eq_comm]
      · have hne : n ≠ m := fun heq => hkind (heq ▸ rfl)
        simp [hkind, hne, ih hrest]

theorem isCreatedBy_iff_get? (hone : s.kinds.Nodup) :
    k.IsCreatedBy s.creationFlags ↔ s.get? k = some (.create k) := by
  rw [isCreatedBy_creationFlags]
  constructor
  · rintro ⟨⟨kind, path⟩, hn, rfl⟩
    obtain ⟨hmem, hkind⟩ := List.mem_filter.mp hn
    obtain rfl : kind = k := by simpa using hkind
    exact (mem_items_iff hone).mp hmem
  · intro hget
    have hmem : Namespace.create k ∈ s.items := (mem_items_iff hone).mpr hget
    exact ⟨.create k, List.mem_filter.mpr ⟨hmem, beq_self_eq_true k⟩, rfl⟩

theorem mem_joins_iff_get? (hone : s.kinds.Nodup) {p : Path} :
    (k, p) ∈ s.joins ↔ s.get? k = some (.enter k p) := by
  rw [joins, List.mem_filterMap]
  constructor
  · rintro ⟨⟨kind, path⟩, hmem, hpath⟩
    obtain ⟨q, rfl, hq⟩ := Option.map_eq_some_iff.mp hpath
    obtain ⟨rfl, rfl⟩ := Prod.mk.inj hq
    exact (mem_items_iff hone).mp hmem
  · intro hget
    exact ⟨.enter k p, (mem_items_iff hone).mpr hget, rfl⟩

/-- What is joined stands in the order of the list. -/
theorem joins_sublist_kinds (s : NamespaceList) : (s.joins.map Prod.fst).Sublist s.kinds := by
  obtain ⟨items⟩ := s
  simp only [joins, kinds]
  induction items with
  | nil => exact .slnil
  | cons n rest ih =>
      cases hpath : n.path with
      | none => simpa [hpath] using ih.cons n.kind
      | some p => simpa [hpath] using ih

/-! ## The map -/

/-- A list is the map that a history makes. -/
structure MapOf (edits : List Edit) (s : NamespaceList) : Prop where
  /-- There is at most one namespace of a kind. -/
  one : s.kinds.Nodup
  get? : ∀ k n, s.get? k = some n ↔ Leaves edits k n
  has : ∀ k, s.has k = true ↔ ∃ n, Leaves edits k n
  /-- Each kind came with one edit, and the kinds stand in the order of these. -/
  came : ∀ k, s.has k = true → ∃! i, CameWith edits k i
  order : s.kinds.Pairwise (CameBefore edits)
  /-- A kind is created if it has no path. -/
  created : ∀ k, k.IsCreatedBy s.creationFlags ↔ Leaves edits k (.create k)
  /-- A kind is joined if it has a path, by this path and only once. -/
  joined : ∀ k p, (k, p) ∈ s.joins ↔ Leaves edits k (.enter k p)
  joinedOnce : (s.joins.map Prod.fst).Nodup
  /-- Removing a kind tells whether it was there. -/
  removed : ∀ k, (s.remove k).1 = true ↔ ∃ n, Leaves edits k n

theorem ofList_eq_afterAll (ns : List Namespace) : ofList ns = empty.afterAll (ns.map .add) := by
  rw [afterAll, List.foldl_map]
  rfl

/-- A list of namespaces to which others were added, from which kinds were removed and which
was redirected, in any order and any number of times, is the map that the history of these
edits makes, beginning with those that collected it. -/
theorem mapOf_afterAll (ns : List Namespace) (edits : List Edit) :
    MapOf (ns.map .add ++ edits) ((ofList ns).afterAll edits) := by
  have hedits : (ofList ns).afterAll edits = empty.afterAll (ns.map .add ++ edits) := by
    rw [ofList_eq_afterAll, afterAll, afterAll, afterAll, List.foldl_append]
  have hone := nodup_kinds_afterAll (ns.map .add ++ edits)
  rw [hedits]
  exact {
    one := hone
    get? := fun k n => get?_afterAll
    has := fun k => has_afterAll
    came := fun k hk => existsUnique_cameWith (has_afterAll.mp hk)
    order := ordered_afterAll _
    created := fun k => (isCreatedBy_iff_get? hone).trans get?_afterAll
    joined := fun k p => (mem_joins_iff_get? hone).trans get?_afterAll
    joinedOnce := hone.sublist (joins_sublist_kinds _)
    removed := fun k => by rw [remove_eq, has_afterAll] }

/-- A kind that is replaced keeps its place, and one that is removed loses it. -/
example :
    ((ofList [.create .user, .create .network]).afterAll
      [.remove .user, .add (.create .user), .add (.enter .network ⟨"/run/net"⟩)]).items =
      [.enter .network ⟨"/run/net"⟩, .create .user] := by
  decide

end NamespaceList
end ContainerLaunch
