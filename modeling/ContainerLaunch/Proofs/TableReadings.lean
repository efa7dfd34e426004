import Mathlib
import ContainerLaunch.Proofs.SuperuserCapabilities
import ContainerLaunch.Proofs.Text
/-!
# Two readings of the table

The lists of the table are read in two ways.  For the superuser they are lists of names
like any other: a name may be in any case, with or without its prefix, with white space
around it, and next to others between commas.  For another caller an entry counts only if
it is the canonical name of a capability in any case.  So the two readings agree on the
entries that are written out like that, and all others say nothing to the second.
-/

namespace ContainerLaunch

namespace Text

variable {a b : String}

/-! ## Capitals and white space -/

/-- Texts are the same in any case if they are the same in capitals. -/
theorem sameIgnoringCase_iff : sameIgnoringCase a b = true ↔ upper a = upper b := by
  simp only [sameIgnoringCase, upper, beq_iff_eq, String.ofList_inj]
  constructor
  · intro hlower
    have hupper := congrArg (List.map Char.toUpper) hlower
    simpa only [List.map_map, Function.comp_def, Char.toUpper_toLower_eq_toUpper] using hupper
  · intro hupper
    have hlower := congrArg (List.map Char.toLower) hupper
    simpa only [List.map_map, Function.comp_def, Char.toLower_toUpper_eq_toLower] using hlower

theorem isBlank_of_isAlpha {c : Char} (halpha : c.isAlpha = true) : isBlank c = false := by
  have hrange : 65 ≤ c.val.toNat ∧ c.val.toNat ≤ 122 := by
    simp only [Char.isAlpha, Char.isUpper, Char.isLower, Bool.or_eq_true, Bool.and_eq_true,
      decide_eq_true_eq, ge_iff_le, UInt32.le_iff_toNat_le] at halpha
    rcases halpha with ⟨hlow, hhigh⟩ | ⟨hlow, hhigh⟩
    · exact ⟨hlow, hhigh.trans (by decide)⟩
    · exact ⟨Nat.le_trans (by decide) hlow, hhigh⟩
  simp only [isBlank, Bool.or_eq_false_iff, Bool.and_eq_false_iff, decide_eq_false_iff_not,
    beq_eq_false_iff_ne, UInt32.le_iff_toNat_le, ne_eq, ← UInt32.toNat_inj, UInt32.reduceToNat]
  omega

theorem isBlank_toUpper (c : Char) : isBlank c.toUpper = isBlank c := by
  by_cases hlower : c.isLower = true
  · have halpha : c.isAlpha = true := by simp [Char.isAlpha, hlower]
    rw [isBlank_of_isAlpha halpha, isBlank_of_isAlpha (by simpa using halpha)]
  · rw [Char.toUpper_eq_of_not_isLower hlower]

theorem trimmed_map_toUpper (cs : List Char) :
    trimmed (cs.map Char.toUpper) = (trimmed cs).map Char.toUpper := by
  have hblank : isBlank ∘ Char.toUpper = isBlank := funext isBlank_toUpper
  simp only [trimmed, dropTrailing, List.dropWhile_map, ← List.map_reverse, hblank]

theorem trimmed_sublist (cs : List Char) : (trimmed cs).Sublist cs := by
  have htail : (trimmed cs).Sublist (cs.dropWhile isBlank) := by
    rw [← List.reverse_sublist, trimmed, dropTrailing, List.reverse_reverse]
    exact List.dropWhile_sublist isBlank
  exact htail.trans (List.dropWhile_sublist isBlank)

/-- A text has no white space around it if it has none in capitals. -/
theorem trim_eq_of_upper (htrim : trim (upper a) = upper a) : trim a = a := by
  have hletters : (trimmed a.toList).map Char.toUpper = a.toList.map Char.toUpper := by
    simpa only [trim, upper, String.toList_ofList, trimmed_map_toUpper, String.ofList_inj]
      using htrim
  have hlength : (trimmed a.toList).length = a.toList.length := by
    simpa only [List.length_map] using congrArg List.length hletters
  rw [trim, (trimmed_sublist a.toList).eq_of_length hlength, String.ofList_toList]

end Text

namespace Capability

variable {k : Capability} {entry : String} {entries : List String}

/-! ## Entries that are written out -/

/-- An entry is one name with its prefix and nothing around it, and not that of all
capabilities. -/
structure WrittenOut (entry : String) : Prop where
  single : ',' ∉ entry.toList
  bare : Text.trim entry = entry
  prefixed : (Text.stripStart "CAP_" (Text.upper entry)).isSome = true
  not_all : Text.upper entry ≠ "CAP_ALL"

instance : DecidablePred WrittenOut := fun entry =>
  decidable_of_iff (',' ∉ entry.toList ∧ Text.trim entry = entry ∧
      (Text.stripStart "CAP_" (Text.upper entry)).isSome = true ∧ Text.upper entry ≠ "CAP_ALL")
    ⟨fun ⟨hsingle, hbare, hprefix, hall⟩ => ⟨hsingle, hbare, hprefix, hall⟩,
      fun ⟨hsingle, hbare, hprefix, hall⟩ => ⟨hsingle, hbare, hprefix, hall⟩⟩

/-- The entries of a list that are written out. -/
def writtenOut (entries : List String) : List String :=
  entries.filter fun entry => decide (WrittenOut entry)

theorem upper_name (k : Capability) : Text.upper k.name = k.name := by
  rw [Text.upper, (letters_name k).2.1, String.ofList_toList]

theorem WrittenOut.canonicalSpelling_eq (hout : WrittenOut entry) :
    canonicalSpelling entry = Text.upper entry := by
  simp only [canonicalSpelling, hout.bare, hout.prefixed, if_true]

theorem WrittenOut.pieces_eq (hout : WrittenOut entry) : Text.pieces ',' entry = [entry] := by
  rw [Text.pieces, Text.piecesOf_of_not_mem hout.single, List.map_singleton, String.ofList_toList]

/-- An entry in which only the case may differ from a canonical name is written out. -/
theorem writtenOut_of_upper (hupper : Text.upper entry = k.name) : WrittenOut entry := by
  obtain ⟨-, -, hprefix, hpieces, hall, -⟩ := letters_name k
  constructor
  case single =>
    intro hcomma
    have hmem : ',' ∈ k.name.toList := by
      rw [← hupper, Text.upper, String.toList_ofList]
      exact List.mem_map_of_mem (f := Char.toUpper) hcomma
    exact Text.not_mem_of_mem_piecesOf (hpieces ▸ List.mem_singleton_self _) hmem
  case bare =>
    apply Text.trim_eq_of_upper
    rw [hupper, trim_name]
  case prefixed =>
    rw [hupper, Text.stripStart, Option.isSome_map]
    exact hprefix
  case not_all =>
    rw [hupper]
    exact hall

/-- An entry is a canonical name in any case exactly if it is written out and names the
capability. -/
theorem sameIgnoringCase_name_iff :
    Text.sameIgnoringCase entry k.name = true ↔ WrittenOut entry ∧ k.NamedIn [entry] := by
  rw [Text.sameIgnoringCase_iff, upper_name]
  constructor
  · intro hupper
    have hout := writtenOut_of_upper hupper
    refine ⟨hout, entry, List.mem_singleton_self entry, entry, ?_, .inl ?_⟩
    · rw [hout.pieces_eq]
      exact List.mem_singleton_self entry
    · rw [hout.canonicalSpelling_eq, hupper]
  · rintro ⟨hout, _, hentry, piece, hpiece, hspelled⟩
    obtain rfl := List.mem_singleton.mp hentry
    rw [hout.pieces_eq] at hpiece
    obtain rfl := List.mem_singleton.mp hpiece
    rw [hout.canonicalSpelling_eq] at hspelled
    exact hspelled.resolve_right hout.not_all

theorem namedIn_iff_exists : k.NamedIn entries ↔ ∃ entry ∈ entries, k.NamedIn [entry] := by
  simp only [NamedIn, List.mem_singleton, exists_eq_left]

theorem namedIn_writtenOut :
    k.NamedIn (writtenOut entries) ↔ ∃ entry ∈ entries, WrittenOut entry ∧ k.NamedIn [entry] := by
  rw [namedIn_iff_exists]
  simp only [writtenOut, List.mem_filter, decide_eq_true_eq, and_assoc]

end Capability

namespace CapabilityTable

variable {k : Capability} {c : Caller} {t : CapabilityTable}

/-! ## The lists of a caller -/

/-- The entries under the name of a user and under those of groups. -/
def entriesFor (t : CapabilityTable) (user : String) (groups : List String) : List String :=
  t.ofUser user ++ groups.flatMap t.ofGroup

theorem exists_mem_entriesFor {p : String → Prop} {user : String} {groups : List String} :
    (∃ entry ∈ t.entriesFor user groups, p entry) ↔
      (∃ entry ∈ t.ofUser user, p entry) ∨
        ∃ group ∈ groups, ∃ entry ∈ t.ofGroup group, p entry := by
  simp only [entriesFor, List.mem_append, List.mem_flatMap]
  grind

/-- For the superuser the table is read as a list of names. -/
theorem namesForRoot_iff :
    t.NamesForRoot c k ↔ k.NamedIn (t.entriesFor "root" c.namesOfGroups) := by
  rw [Capability.namedIn_iff_exists, exists_mem_entriesFor]
  simp only [← Capability.namedIn_iff_exists, NamesForRoot]

/-- For another caller only the entries that are written out are read. -/
theorem grantsTo_iff :
    t.GrantsTo c k ↔
      k.NamedIn (Capability.writtenOut (t.entriesFor c.username c.namesOfGroups)) := by
  rw [Capability.namedIn_writtenOut, exists_mem_entriesFor]
  simp only [← Capability.sameIgnoringCase_name_iff, GrantsTo]

end CapabilityTable

namespace Grant

variable {k : Capability} {c : Caller} {t : CapabilityTable} {r : CapabilityDemand}

/-! ## The two readings -/

theorem namedIn_all (k : Capability) : k.NamedIn ["ALL"] :=
  ⟨"ALL", List.mem_singleton_self _, "ALL", by decide, .inr (by decide +kernel)⟩

/-- Who asks for every capability and drops none is given what the table grants. -/
theorem mem_forUser_all :
    k ∈ (forUser c t true { r with add := ["ALL"], drop := [] }).set ↔ t.GrantsTo c k := by
  rw [mem_forUser_enforced]
  exact ⟨fun hk => hk.2.1, fun hk => ⟨.inl (namedIn_all k), hk, Capability.not_namedIn_nil⟩⟩

/-- The demand of the superuser for what the policy leaves to it. -/
def asLeft : CapabilityDemand := ⟨[], [], [], false, false, false⟩

theorem mem_forRoot_asLeft : k ∈ (forRoot c t .table asLeft).set ↔ t.NamesForRoot c k := by
  rw [mem_forRoot]
  change ¬ k.NamedIn [] ∧ (k.NamedIn [] ∨ RootCapabilities.table = .full ∨
    RootCapabilities.table = .table ∧ _) ↔ _
  simp [Capability.not_namedIn_nil]

/-- A caller other than the superuser that asks for every capability is given what the
entries for it and its groups name that are written out.  That is what all its entries name
if and only if each capability that these name is named by one that is written out.  The
superuser is always given what all its entries name. -/
theorem table_readings (c : Caller) (t : CapabilityTable) (r : CapabilityDemand) :
    let entries := t.entriesFor c.username c.namesOfGroups
    let given := (forUser c t true { r with add := ["ALL"], drop := [] }).set
    given = Capability.named (Capability.writtenOut entries) ∧
      (given = Capability.named entries ↔ ∀ k : Capability, k.NamedIn entries →
        ∃ entry ∈ entries, Capability.WrittenOut entry ∧ k.NamedIn [entry]) ∧
      ∀ c' t', (forRoot c' t' .table asLeft).set =
        Capability.named (t'.entriesFor "root" c'.namesOfGroups) := by
  intro entries given
  have hgiven : given = Capability.named (Capability.writtenOut entries) := by
    apply (known_forUser true _).ext (Capability.known_named _)
    intro k
    rw [mem_forUser_all, CapabilityTable.grantsTo_iff, Capability.mem_named_iff_namedIn]
  refine ⟨hgiven, ?_, ?_⟩
  · rw [hgiven]
    constructor
    · intro hsame k hk
      rw [← Capability.mem_named_iff_namedIn, ← hsame, Capability.mem_named_iff_namedIn] at hk
      exact Capability.namedIn_writtenOut.mp hk
    · intro hall
      apply (Capability.known_named _).ext (Capability.known_named _)
      intro k
      simp only [Capability.mem_named_iff_namedIn, Capability.namedIn_writtenOut]
      constructor
      · rintro ⟨entry, hentry, -, hk⟩
        exact Capability.namedIn_iff_exists.mpr ⟨entry, hentry, hk⟩
      · exact hall k
  · intro c' t'
    apply (known_forRoot .table asLeft).ext (Capability.known_named _)
    intro k
    rw [mem_forRoot_asLeft, CapabilityTable.namesForRoot_iff, Capability.mem_named_iff_namedIn]

/-! ## Entries that only the superuser's reading understands -/

def alice : Caller := { (default : Caller) with uid := 1000, username := "alice" }

/-- A table with one entry, under the name of a user. -/
def entryFor (user entry : String) : CapabilityTable := ⟨.ofList [(user, [entry])], .empty⟩

/-- The entry names a capability without its prefix.  The superuser is given it under such
an entry, and another caller is given nothing. -/
theorem entry_read_for_root_only :
    (forUser alice (entryFor "alice" "net_raw") true
        { asLeft with add := ["ALL"], drop := [] }).set = .empty ∧
      (Capability.named ((entryFor "alice" "net_raw").entriesFor "alice" [])).names =
        ["CAP_NET_RAW"] ∧
      (forRoot (rootIn []) (entryFor "root" "net_raw") .table asLeft).set.names =
        ["CAP_NET_RAW"] := by
  decide +kernel

/-- It is the same with white space, with another name beside it, and for all of them. -/
example :
    ∀ entry ∈ [" CAP_NET_RAW", "CAP_NET_RAW,CAP_KILL", "ALL"],
      (forUser alice (entryFor "alice" entry) true
        { asLeft with add := ["ALL"], drop := [] }).set = .empty ∧
      "CAP_NET_RAW" ∈ (forRoot (rootIn []) (entryFor "root" entry) .table asLeft).set.names := by
  decide +kernel

end Grant
end ContainerLaunch
