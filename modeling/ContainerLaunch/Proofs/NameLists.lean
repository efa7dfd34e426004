import ContainerLaunch.Capability.Classes
import ContainerLaunch.Proofs.TableReadings
/-!
# Lists of names and what they stand for

A list of names is read piece by piece: what stands between commas and is not blank is one
name, and each name stands for all capabilities, for one of them, or for nothing.  How the
names are put together in entries does not matter, and for the set neither their order nor
how often they occur.  The names of a set are read back as the set, as far as its bits are
those of capabilities.
-/

namespace ContainerLaunch

namespace Text

/-- What was joined with a separator has the pieces of its parts. -/
theorem piecesOf_intercalate_eq_flatMap (sep : Char) {parts : List (List Char)}
    (hparts : parts ≠ []) :
    piecesOf sep ([sep].intercalate parts) = parts.flatMap (piecesOf sep) := by
  induction parts with
  | nil => exact absurd rfl hparts
  | cons part rest ih =>
      cases rest with
      | nil => simp
      | cons next more =>
          rw [List.intercalate_cons_cons, List.append_assoc, List.singleton_append,
            piecesOf_append_sep, ih (List.cons_ne_nil _ _)]
          rfl

end Text

namespace CapabilitySet

theorem Known.inter {t : CapabilitySet} (s : CapabilitySet) (ht : t.Known) : (s.inter t).Known := by
  intro i hi
  simp only [CapabilitySet.inter, UInt64.toNat_and, Nat.testBit_and, Bool.and_eq_true] at hi
  exact ht i hi.2

end CapabilitySet

namespace Capability

variable {k : Capability} {a b entries : List String} {piece word : String} {t : Token}

/-! ## What a name stands for -/

/-- A piece of a text spells a word: without the white space around it, it is the word in any
case, with or without the prefix of capabilities. -/
def Spells (piece word : String) : Prop :=
  Text.sameIgnoringCase (Text.trim piece) word = true ∨
    Text.sameIgnoringCase (Text.trim piece) ("CAP_" ++ word) = true

/-- The name of a capability without its prefix. -/
def shortName (k : Capability) : String :=
  (Text.stripStart "CAP_" k.name).getD ""

/-- What a name stands for: all capabilities, the one that it spells, or else nothing. -/
inductive StandsFor (piece : String) : Token → Prop
  | all (hall : Spells piece "ALL") : StandsFor piece .all
  | one (k : Capability) (hone : Spells piece k.shortName) : StandsFor piece (.one k)
  | unknown (hall : ¬ Spells piece "ALL") (hnone : ∀ k : Capability, ¬ Spells piece k.shortName) :
      StandsFor piece (.unknown (Text.trim piece))

theorem stripStart_eq_some_iff {start s rest : String} :
    Text.stripStart start s = some rest ↔ s = start ++ rest := by
  rw [Text.stripStart, Option.map_eq_some_iff]
  simp only [Text.afterPrefix_eq_some_iff]
  constructor
  · rintro ⟨cs, hs, rfl⟩
    rw [← String.toList_inj, String.toList_append, String.toList_ofList, hs]
  · rintro rfl
    exact ⟨rest.toList, String.toList_append, String.ofList_toList⟩

/-- No name has the prefix twice. -/
theorem stripStart_shortName (k : Capability) : Text.stripStart "CAP_" k.shortName = none := by
  obtain ⟨i⟩ := k
  revert i
  decide +kernel

theorem name_eq (k : Capability) : k.name = "CAP_" ++ k.shortName := by
  have hprefix := (letters_name k).2.2.1
  rw [← Option.isSome_map (f := String.ofList)] at hprefix
  obtain ⟨rest, hrest⟩ := Option.isSome_iff_exists.mp hprefix
  have hstart : Text.stripStart "CAP_" k.name = some rest := hrest
  rw [shortName, hstart]
  exact stripStart_eq_some_iff.mp hstart

theorem upper_prefixed (word : String) :
    Text.upper ("CAP_" ++ word) = "CAP_" ++ Text.upper word := by
  have hcap : "CAP_".toList.map Char.toUpper = "CAP_".toList := by decide
  apply String.toList_inj.mp
  simp only [Text.upper, String.toList_ofList, String.toList_append, List.map_append, hcap]

theorem upper_shortName (k : Capability) : Text.upper k.shortName = k.shortName := by
  have hupper := upper_name k
  rw [name_eq, upper_prefixed, ← String.toList_inj, String.toList_append,
    String.toList_append] at hupper
  exact String.toList_inj.mp (List.append_cancel_left hupper)

/-- A name is spelled like a word in capitals exactly if its canonical spelling is that of the
word. -/
theorem spells_iff (hupper : Text.upper word = word) (hbare : Text.stripStart "CAP_" word = none) :
    Spells piece word ↔ canonicalSpelling piece = "CAP_" ++ word := by
  have hprefixed : Text.upper ("CAP_" ++ word) = "CAP_" ++ word := by
    rw [upper_prefixed, hupper]
  rw [Spells, Text.sameIgnoringCase_iff, Text.sameIgnoringCase_iff, hupper, hprefixed]
  simp only [canonicalSpelling]
  cases hstart : Text.stripStart "CAP_" (Text.upper (Text.trim piece)) with
  | some rest =>
      have hnot : Text.upper (Text.trim piece) ≠ word := by
        intro hword
        rw [hword, hbare] at hstart
        cases hstart
      simp [hnot]
  | none =>
      have hnot : Text.upper (Text.trim piece) ≠ "CAP_" ++ word := by
        intro hword
        rw [stripStart_eq_some_iff.mpr hword] at hstart
        cases hstart
      simp [hnot]

theorem spells_all_iff : Spells piece "ALL" ↔ canonicalSpelling piece = "CAP_ALL" :=
  spells_iff (by decide) (by decide)

theorem spells_shortName_iff : Spells piece k.shortName ↔ canonicalSpelling piece = k.name := by
  rw [spells_iff (upper_shortName k) (stripStart_shortName k), ← name_eq]

/-- A name stands for exactly one thing. -/
theorem standsFor_iff : StandsFor piece t ↔ token piece = t := by
  constructor
  · intro hstands
    cases hstands with
    | all hall => simp [token, spells_all_iff.mp hall]
    | one k hone =>
        have hspelled := spells_shortName_iff.mp hone
        have hall : k.name ≠ "CAP_ALL" := (letters_name k).2.2.2.2.1
        simp [token, hspelled, hall, ofName?_name]
    | unknown hall hnone =>
        have hnothing : ofName? (canonicalSpelling piece) = none := by
          by_contra hsome
          obtain ⟨k, hk⟩ := Option.ne_none_iff_exists'.mp hsome
          exact hnone k (spells_shortName_iff.mpr (name_of_ofName? hk).symm)
        simp [token, mt spells_all_iff.mpr hall, hnothing]
  · rintro rfl
    by_cases hall : canonicalSpelling piece = "CAP_ALL"
    · have htoken : token piece = .all := by simp only [token, hall, if_true]
      exact htoken ▸ .all (spells_all_iff.mpr hall)
    · cases hone : ofName? (canonicalSpelling piece) with
      | some k =>
          have htoken : token piece = .one k := by simp only [token, hall, if_false, hone]
          exact htoken ▸ .one k (spells_shortName_iff.mpr (name_of_ofName? hone).symm)
      | none =>
          have htoken : token piece = .unknown (Text.trim piece) := by
            simp only [token, hall, if_false, hone]
          rw [htoken]
          refine .unknown (mt spells_all_iff.mp hall) fun k hk => ?_
          rw [spells_shortName_iff.mp hk, ofName?_name] at hone
          cases hone

/-! ## The names of a list -/

/-- The names in a list of entries: what stands between commas and is not blank, in order. -/
def written (entries : List String) : List String :=
  entries.flatMap fun entry =>
    (Text.pieces ',' entry).filter fun piece => !piece.toList.all Text.isBlank

theorem namesIn_eq (entry : String) :
    namesIn entry =
      (Text.pieces ',' entry).filter fun piece => !piece.toList.all Text.isBlank := by
  refine List.filter_congr fun piece _ => ?_
  rw [Bool.eq_iff_iff, bne_iff_ne, ne_eq, Text.trim_eq_empty_iff]
  simp

theorem tokens_eq (entries : List String) : tokens entries = (written entries).map token := by
  simp only [tokens, written, ← namesIn_eq]

/-- The names of a list stand for its tokens and for nothing else, one by one. -/
theorem forall₂_standsFor_iff {ts : List Token} :
    List.Forall₂ StandsFor (written entries) ts ↔ tokens entries = ts := by
  have hfunction : StandsFor = fun piece t => token piece = t := by
    funext piece t
    exact propext standsFor_iff
  rw [tokens_eq, hfunction, ← List.forall₂_map_left_iff, List.forall₂_eq_eq_eq]

theorem mem_named_iff_tokens :
    k ∈ named entries ↔ .all ∈ tokens entries ∨ .one k ∈ tokens entries := by
  have hset : ∀ t : Token, k ∈ t.set ↔ t = .all ∨ t = .one k := by
    intro t
    cases t with
    | all => simp [Token.set, CapabilitySet.mem_full]
    | one c => simp [Token.set, CapabilitySet.mem_insert, CapabilitySet.not_mem_empty, eq_comm]
    | unknown name => simp [Token.set, CapabilitySet.not_mem_empty]
  simp only [mem_named_iff, hset, and_or_left, exists_or, exists_eq_right]

/-- Lists that are put together name what either names. -/
theorem named_append (a b : List String) : named (a ++ b) = (named a).union (named b) := by
  refine (known_named _).ext ((known_named a).union (known_named b)) fun k => ?_
  simp only [CapabilitySet.mem_union, mem_named_iff, tokens_append, List.mem_append]
  grind

/-- Joining entries with commas keeps their names. -/
theorem namesIn_join (entries : List String) :
    namesIn (Text.join "," entries) = entries.flatMap namesIn := by
  cases entries with
  | nil => decide +kernel
  | cons entry rest =>
      have hpieces : Text.pieces ',' (Text.join "," (entry :: rest)) =
          (entry :: rest).flatMap (Text.pieces ',') := by
        have hjoined : (Text.join "," (entry :: rest)).toList =
            [','].intercalate ((entry :: rest).map String.toList) := by
          rw [Text.join, String.toList_intercalate]
          rfl
        rw [Text.pieces, hjoined, Text.piecesOf_intercalate_eq_flatMap ',' (by simp),
          List.map_flatMap, List.flatMap_map]
        rfl
      rw [namesIn, hpieces, List.filter_flatMap]
      rfl

theorem tokens_join (entries : List String) : tokens [Text.join "," entries] = tokens entries := by
  rw [tokens, tokens, List.flatMap_singleton, namesIn_join]

theorem named_congr (hsame : ∀ name, name ∈ written a ↔ name ∈ written b) : named a = named b := by
  refine (known_named a).ext (known_named b) fun k => ?_
  simp only [mem_named_iff, tokens_eq, List.mem_map, hsame]

/-- The names of a set are read back as the capabilities in it. -/
theorem named_names (s : CapabilitySet) : named s.names = s.inter .full := by
  refine (known_named _).ext (.inter s CapabilitySet.known_full) fun k => ?_
  simp [mem_named_names, CapabilitySet.mem_inter, CapabilitySet.mem_full]

/-! ## Names and sets -/

/-- A list of names is accounted for: each of its names stands for one thing, the set holds
what some name stands for, and what stands for nothing is told in order. -/
structure AccountedFor (entries : List String) (ts : List Token) : Prop where
  names : List.Forall₂ StandsFor (written entries) ts
  set : ∀ k, k ∈ named entries ↔ .all ∈ ts ∨ .one k ∈ ts
  unknown : unknownIn entries = ts.filterMap Token.unknown?

/-- Sets go through their names and back without loss, and lists of names are read as what
they name: put together, joined, in any order and as often as one likes. -/
theorem names_and_sets :
    (∀ s : CapabilitySet, named s.names = s.inter .full ∧
      (CapabilityClasses.uniform s).words =
        let w := (s.inter .full).bits
        ⟨w, w, w, w, w⟩) ∧
    (∀ a b, named (a ++ b) = (named a).union (named b) ∧
      unknownIn (a ++ b) = unknownIn a ++ unknownIn b) ∧
    (∀ a, named [Text.join "," a] = named a ∧ unknownIn [Text.join "," a] = unknownIn a) ∧
    (∀ a, ∃! ts, AccountedFor a ts) ∧
    ∀ a b, (∀ name, name ∈ written a ↔ name ∈ written b) → named a = named b := by
  refine ⟨fun s => ⟨named_names s, ?_⟩, fun a b => ⟨named_append a b, unknownIn_append a b⟩,
    fun a => ?_, fun a => ?_, fun a b => named_congr⟩
  · rw [CapabilityClasses.words_uniform, named_names]
  · simp only [named, unknownIn, tokens_join, and_self]
  · refine ⟨tokens a, ⟨forall₂_standsFor_iff.mpr rfl, fun k => mem_named_iff_tokens, rfl⟩, ?_⟩
    intro ts haccounted
    exact (forall₂_standsFor_iff.mp haccounted.names).symm

/-- The same names in another order, in other entries, and one of them twice. -/
theorem names_and_sets_reordered :
    (∀ name, name ∈ written ["kill,net_raw", " ,kill"] ↔ name ∈ written ["net_raw", "kill"]) ∧
      named ["kill,net_raw", " ,kill"] = named ["net_raw", "kill"] := by
  have hfirst : written ["kill,net_raw", " ,kill"] = ["kill", "net_raw", "kill"] := by
    decide +kernel
  have hsecond : written ["net_raw", "kill"] = ["net_raw", "kill"] := by decide +kernel
  have hsame : ∀ name,
      name ∈ written ["kill,net_raw", " ,kill"] ↔ name ∈ written ["net_raw", "kill"] := by
    intro name
    rw [hfirst, hsecond]
    simp [or_comm]
  exact ⟨hsame, names_and_sets.2.2.2.2 _ _ hsame⟩

end Capability
end ContainerLaunch
