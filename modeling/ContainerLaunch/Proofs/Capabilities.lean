import ContainerLaunch.Capability.Grant
/-!
# Names, sets and grants

What a list of names stands for, member by member; that a set is found again under
its canonical names; and which capabilities the table grants to a caller.  None of
these sets has a bit that stands for no capability, so they are equal if their
members are the same.
-/

namespace ContainerLaunch

namespace CapabilitySet

variable {s t : CapabilitySet}

/-! ## Sets without unknown bits -/

/-- Every bit of a set stands for a capability. -/
def Known (s : CapabilitySet) : Prop :=
  ∀ i, s.bits.toNat.testBit i = true → i < 41

/-- Sets of which every bit stands for a capability are told apart by their members. -/
theorem Known.ext (hs : s.Known) (ht : t.Known) (hsame : ∀ k, k ∈ s ↔ k ∈ t) : s = t := by
  have hbits : s.bits.toNat = t.bits.toNat := by
    apply Nat.eq_of_testBit_eq
    intro i
    rw [Bool.eq_iff_iff]
    constructor
    · intro hi
      exact (hsame ⟨⟨i, hs i hi⟩⟩).mp hi
    · intro hi
      exact (hsame ⟨⟨i, ht i hi⟩⟩).mpr hi
  cases s
  cases t
  exact congrArg CapabilitySet.mk (UInt64.toNat_inj.mp hbits)

theorem known_empty : empty.Known := by
  intro i hi
  simp [empty] at hi

theorem Known.insert (hs : s.Known) (c : Capability) : (s.insert c).Known := by
  intro i hi
  simp only [CapabilitySet.insert, UInt64.toNat_or, Nat.testBit_or, Capability.testBit_mask,
    Bool.or_eq_true, decide_eq_true_eq] at hi
  rcases hi with hi | rfl
  · exact hs i hi
  · exact c.index.isLt

theorem Known.union (hs : s.Known) (ht : t.Known) : (s.union t).Known := by
  intro i hi
  simp only [CapabilitySet.union, UInt64.toNat_or, Nat.testBit_or, Bool.or_eq_true] at hi
  exact hi.elim (hs i) (ht i)

theorem Known.diff (hs : s.Known) (t : CapabilitySet) : (s.diff t).Known := by
  intro i hi
  simp only [CapabilitySet.diff, UInt64.toNat_and, Nat.testBit_and, Bool.and_eq_true] at hi
  exact hs i hi.1

theorem Known.foldl {α : Type} {f : CapabilitySet → α → CapabilitySet} (hs : s.Known)
    (hstep : ∀ s x, s.Known → (f s x).Known) (xs : List α) : (xs.foldl f s).Known := by
  induction xs generalizing s with
  | nil => exact hs
  | cons x rest ih => exact ih (hstep s x hs)

theorem known_full : full.Known :=
  known_empty.foldl (fun _ c hs => hs.insert c) _

end CapabilitySet

namespace Capability

variable {k : Capability} {s : String}

/-! ## Lists of names -/

/-- A capability is named in a list: a piece between commas of one of its entries is
spelled like the capability, or like all of them. -/
def NamedIn (k : Capability) (entries : List String) : Prop :=
  ∃ entry ∈ entries, ∃ piece ∈ Text.pieces ',' entry,
    canonicalSpelling piece = k.name ∨ canonicalSpelling piece = "CAP_ALL"

theorem name_ne_prefix (k : Capability) : k.name ≠ "CAP_" := by
  obtain ⟨i⟩ := k
  revert i
  decide +kernel

theorem canonicalSpelling_of_blank (hblank : Text.trim s = "") :
    canonicalSpelling s = "CAP_" := by
  unfold canonicalSpelling
  rw [hblank]
  decide +kernel

/-- A name stands for a capability exactly if it is spelled like it or like all. -/
theorem mem_set_token :
    k ∈ (token s).set ↔ canonicalSpelling s = k.name ∨ canonicalSpelling s = "CAP_ALL" := by
  unfold token
  by_cases hall : canonicalSpelling s = "CAP_ALL"
  · simp only [hall, if_true, Token.set, or_true, iff_true]
    exact CapabilitySet.mem_full k
  · simp only [hall, if_false, or_false]
    cases hone : ofName? (canonicalSpelling s) with
    | some c =>
        simp only [Token.set, CapabilitySet.mem_insert, CapabilitySet.not_mem_empty, or_false]
        have hname : c.name = canonicalSpelling s := name_of_ofName? hone
        constructor
        · rintro rfl
          exact hname.symm
        · intro hk
          rw [hk, ofName?_name] at hone
          exact Option.some.inj hone
    | none =>
        simp only [Token.set, CapabilitySet.not_mem_empty, false_iff]
        intro hk
        rw [hk, ofName?_name] at hone
        cases hone

/-- The set of a list of names holds what is named in it. -/
theorem mem_named_iff_namedIn {entries : List String} :
    k ∈ named entries ↔ NamedIn k entries := by
  simp only [mem_named_iff, tokens, List.mem_map, List.mem_flatMap]
  constructor
  · rintro ⟨_, ⟨piece, ⟨entry, hentry, hpiece⟩, rfl⟩, hk⟩
    exact ⟨entry, hentry, piece, (List.mem_filter.mp hpiece).1, mem_set_token.mp hk⟩
  · rintro ⟨entry, hentry, piece, hpiece, hk⟩
    refine ⟨_, ⟨piece, ⟨entry, hentry, ?_⟩, rfl⟩, mem_set_token.mpr hk⟩
    refine List.mem_filter.mpr ⟨hpiece, ?_⟩
    -- A blank piece is spelled like nothing that is known.
    rw [bne_iff_ne]
    intro hblank
    rw [canonicalSpelling_of_blank hblank] at hk
    rcases hk with hk | hk
    · exact name_ne_prefix k hk.symm
    · exact absurd hk (by decide)

theorem not_namedIn_nil : ¬ k.NamedIn [] := by
  rintro ⟨entry, hentry, -⟩
  exact List.not_mem_nil hentry

theorem known_set_token (token : Token) : token.set.Known := by
  cases token with
  | all => exact CapabilitySet.known_full
  | one c => exact CapabilitySet.known_empty.insert c
  | unknown name => exact CapabilitySet.known_empty

theorem known_named (entries : List String) : (named entries).Known :=
  CapabilitySet.known_empty.foldl (fun _ token hs => hs.union (known_set_token token)) _

/-! ## Canonical names -/

/-- A canonical name starts with the prefix and is written in capitals, without commas
and without white space around it. -/
theorem letters_name (k : Capability) :
    Text.trimmed k.name.toList = k.name.toList ∧
      k.name.toList.map Char.toUpper = k.name.toList ∧
      (Text.afterPrefix "CAP_".toList k.name.toList).isSome = true ∧
      Text.piecesOf ',' k.name.toList = [k.name.toList] ∧
      k.name ≠ "CAP_ALL" ∧ k.name ≠ "" := by
  obtain ⟨i⟩ := k
  revert i
  decide +kernel

theorem trim_name (k : Capability) : Text.trim k.name = k.name := by
  rw [Text.trim, (letters_name k).1, String.ofList_toList]

theorem canonicalSpelling_name (k : Capability) : canonicalSpelling k.name = k.name := by
  obtain ⟨-, hupper, hprefix, -⟩ := letters_name k
  have hname : Text.upper k.name = k.name := by
    rw [Text.upper, hupper, String.ofList_toList]
  have hstart : (Text.stripStart "CAP_" k.name).isSome = true := by
    rw [Text.stripStart, Option.isSome_map]
    exact hprefix
  simp only [canonicalSpelling, trim_name, hname, hstart, if_true]

theorem token_name (k : Capability) : token k.name = .one k := by
  obtain ⟨-, -, -, -, hall, -⟩ := letters_name k
  simp only [token, canonicalSpelling_name, hall, if_false, ofName?_name]

theorem namesIn_name (k : Capability) : namesIn k.name = [k.name] := by
  obtain ⟨-, -, -, hpieces, -, hblank⟩ := letters_name k
  have hkept : (Text.trim k.name != "") = true := by
    rw [trim_name, bne_iff_ne]
    exact hblank
  rw [namesIn, Text.pieces, hpieces, List.map_singleton, String.ofList_toList]
  exact List.filter_cons_of_pos hkept

/-- A canonical name is one name, and stands for its own capability only. -/
theorem tokens_name (k : Capability) : tokens [k.name] = [.one k] := by
  rw [tokens, List.flatMap_singleton, namesIn_name, List.map_singleton, token_name]

theorem tokens_map_name (cs : List Capability) : tokens (cs.map name) = cs.map .one := by
  induction cs with
  | nil => rfl
  | cons c rest ih =>
      have hsplit : (c :: rest).map name = [c.name] ++ rest.map name := rfl
      rw [hsplit, tokens_append, tokens_name, ih]
      rfl

theorem mem_named_map_name {cs : List Capability} : k ∈ named (cs.map name) ↔ k ∈ cs := by
  simp only [mem_named_iff, tokens_map_name, List.mem_map]
  constructor
  · rintro ⟨_, ⟨c, hc, rfl⟩, hk⟩
    simp only [Token.set, CapabilitySet.mem_insert, CapabilitySet.not_mem_empty, or_false] at hk
    exact hk ▸ hc
  · intro hk
    refine ⟨_, ⟨k, hk, rfl⟩, ?_⟩
    exact CapabilitySet.mem_insert.mpr (Or.inl rfl)

/-- A set is found again under the names of its members. -/
theorem mem_named_names {t : CapabilitySet} : k ∈ named t.names ↔ k ∈ t := by
  rw [CapabilitySet.names, mem_named_map_name, CapabilitySet.mem_toList]

theorem namedIn_names {t : CapabilitySet} : k.NamedIn t.names ↔ k ∈ t := by
  rw [← mem_named_iff_namedIn, mem_named_names]

end Capability

/-! ## The table -/

namespace CapabilityTable

/-- The table grants a capability to a caller: an entry under the name of the caller
or under that of one of its groups is the canonical name in any case. -/
def GrantsTo (t : CapabilityTable) (c : Caller) (k : Capability) : Prop :=
  (∃ entry ∈ t.ofUser c.username, Text.sameIgnoringCase entry k.name = true) ∨
    ∃ group ∈ c.namesOfGroups, ∃ entry ∈ t.ofGroup group,
      Text.sameIgnoringCase entry k.name = true

/-- The table names a capability for the superuser: an entry under its name or under that
of one of its groups does. -/
def NamesForRoot (t : CapabilityTable) (c : Caller) (k : Capability) : Prop :=
  k.NamedIn (t.ofUser "root") ∨ ∃ group ∈ c.namesOfGroups, k.NamedIn (t.ofGroup group)

theorem grants_iff {granted : List String} {name : String} :
    grants granted name = true ↔
      ∃ entry ∈ granted, Text.sameIgnoringCase entry name = true := by
  simp [grants]

end CapabilityTable

namespace Grant

variable {k : Capability} {c : Caller} {t : CapabilityTable} {wanted : CapabilitySet}

/-- What a list of grants allows of a set is what it names in any case. -/
theorem mem_allowedBy {granted : List String} :
    k ∈ allowedBy granted wanted ↔
      k ∈ wanted ∧ ∃ entry ∈ granted, Text.sameIgnoringCase entry k.name = true := by
  have hnames : (CapabilityTable.divide granted wanted.names).1 =
      (wanted.toList.filter fun c => CapabilityTable.grants granted c.name).map
        Capability.name := by
    simp only [CapabilityTable.divide, List.partition_eq_filter_filter, CapabilitySet.names,
      List.filter_map]
    rfl
  rw [allowedBy, hnames, Capability.mem_named_map_name, List.mem_filter,
    CapabilitySet.mem_toList, CapabilityTable.grants_iff]

theorem mem_authorized :
    k ∈ authorized c t wanted ↔ k ∈ wanted ∧ t.GrantsTo c k := by
  rw [authorized, CapabilitySet.mem_foldl_union, mem_allowedBy]
  simp only [mem_allowedBy, CapabilityTable.GrantsTo]
  constructor
  · rintro (⟨hk, huser⟩ | ⟨group, hgroup, hk, hentry⟩)
    · exact ⟨hk, Or.inl huser⟩
    · exact ⟨hk, Or.inr ⟨group, hgroup, hentry⟩⟩
  · rintro ⟨hk, huser | ⟨group, hgroup, hentry⟩⟩
    · exact Or.inl ⟨hk, huser⟩
    · exact Or.inr ⟨group, hgroup, hk, hentry⟩

theorem known_authorized : (authorized c t wanted).Known :=
  (Capability.known_named _).foldl (fun _ _ hs => hs.union (Capability.known_named _)) _

/-- A caller is given what it asks for, by adding it or because an instance had it, as far
as the table grants it, where it has to, and nothing drops it. -/
theorem mem_forUser {enforced : Bool} {r : CapabilityDemand} :
    k ∈ (forUser c t enforced r).set ↔
      (k.NamedIn r.add ∨ k.NamedIn r.existing) ∧ (enforced = true → t.GrantsTo c k) ∧
        ¬ k.NamedIn r.drop := by
  cases enforced with
  | false =>
      simp only [forUser, Bool.false_eq_true, if_false, CapabilitySet.mem_diff, asked,
        CapabilitySet.mem_union, Capability.mem_named_iff_namedIn, false_imp_iff, true_and]
  | true =>
      simp only [forUser, if_true, CapabilitySet.mem_diff, mem_authorized, asked,
        CapabilitySet.mem_union, Capability.mem_named_iff_namedIn, and_assoc, true_imp_iff]

theorem mem_forUser_enforced {r : CapabilityDemand} :
    k ∈ (forUser c t true r).set ↔
      (k.NamedIn r.add ∨ k.NamedIn r.existing) ∧ t.GrantsTo c k ∧ ¬ k.NamedIn r.drop := by
  simp only [mem_forUser, true_imp_iff]

theorem known_forUser (enforced : Bool) (r : CapabilityDemand) :
    (forUser c t enforced r).set.Known := by
  cases enforced with
  | false =>
      exact ((Capability.known_named _).union (Capability.known_named _)).diff _
  | true => exact known_authorized.diff _

/-! ## The superuser -/

theorem mem_rootTable : k ∈ rootTable c t ↔ t.NamesForRoot c k := by
  simp only [rootTable, CapabilitySet.mem_foldl_union, Capability.mem_named_iff_namedIn,
    CapabilityTable.NamesForRoot]

theorem known_rootStart (mode : RootCapabilities) : (rootStart c t mode).Known := by
  cases mode with
  | full => exact CapabilitySet.known_full
  | table =>
      exact (Capability.known_named _).foldl (fun _ _ hs => hs.union (Capability.known_named _)) _
  | no => exact CapabilitySet.known_empty

theorem known_forRoot (mode : RootCapabilities) (r : CapabilityDemand) :
    (forRoot c t mode r).set.Known :=
  ((known_rootStart _).union (Capability.known_named _)).diff _

end Grant
end ContainerLaunch
