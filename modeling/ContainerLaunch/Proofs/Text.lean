import ContainerLaunch.Octets
import ContainerLaunch.Text.Numeral
import ContainerLaunch.Text.Utf8
import Mathlib.Data.List.TakeWhile
/-!
# Texts that are read back

What is written as a text is found again: the octets of a text decode to it, a
text without the character zero is all there is before the first zero octet,
decimal numbers are read back as the numbers they write, and lines and pieces
come apart where they were put together, as do the repetitions at an end.  A
text of which trimming leaves nothing is all white space.
-/

namespace ContainerLaunch

namespace Octets

theorem toList_loop (b : ByteArray) (i : Nat) (acc : List UInt8) :
    ByteArray.toList.loop b i acc = acc.reverse ++ b.data.toList.drop i := by
  fun_induction ByteArray.toList.loop b i acc with
  | case1 i acc hi ih =>
      have hlen : i < b.data.toList.length := by simpa using hi
      have hget : b.get! i = b.data.toList[i] := by
        cases b
        exact getElem!_pos _ i hi
      rw [ih, List.drop_eq_getElem_cons hlen, hget]
      simp
  | case2 i acc hi =>
      have hlen : b.data.toList.length ≤ i := by simpa using hi
      rw [List.drop_eq_nil_of_le hlen, List.append_nil]

theorem toList_eq (b : ByteArray) : b.toList = b.data.toList := by
  rw [ByteArray.toList, toList_loop]
  simp

theorem beforeZero_eq_self {b : ByteArray} (hzero : (0 : UInt8) ∉ b.data.toList) :
    beforeZero b = b := by
  have htake : b.toList.takeWhile (· != 0) = b.data.toList := by
    rw [toList_eq]
    apply List.takeWhile_eq_self_iff.mpr
    intro octet hoctet
    simp only [bne_iff_ne]
    rintro rfl
    exact hzero hoctet
  rw [beforeZero, htake]

end Octets

namespace Text

/-! ## Octets of a text -/

theorem readText_octets (s : String) : readText (octets s) = some s := by
  have hvalid : (octets s).IsValidUTF8 := s.isValidUTF8
  exact dif_pos hvalid

theorem readLossy_octets (s : String) : readLossy (octets s) = s :=
  readLossy_of_readText (readText_octets s)

/-- Only a character of one octet is written with its number: the octets of a longer one have
a mark above it. -/
theorem octet_ne_of_ne {c d : Char} (hd : d.val.toNat < 0x80) (hc : c ≠ d) {octet : UInt8}
    (hmem : octet ∈ String.utf8EncodeChar c) : octet ≠ UInt8.ofNat d.val.toNat := by
  have hval : c.val.toNat ≠ d.val.toNat := fun h => hc (Char.ext (UInt32.toNat_inj.mp h))
  have hne : ∀ n : Nat, n % 256 ≠ d.val.toNat → UInt8.ofNat n ≠ UInt8.ofNat d.val.toNat := by
    intro n hn heq
    apply hn
    have hsame : n % 256 = d.val.toNat % 256 := by simpa using congrArg UInt8.toNat heq
    omega
  simp only [String.utf8EncodeChar] at hmem
  split at hmem
  · rw [List.mem_singleton.mp hmem]
    exact hne _ (by omega)
  · split at hmem
    · simp only [List.mem_cons, List.not_mem_nil, or_false] at hmem
      rcases hmem with rfl | rfl <;> exact hne _ (by omega)
    · split at hmem
      · simp only [List.mem_cons, List.not_mem_nil, or_false] at hmem
        rcases hmem with rfl | rfl | rfl <;> exact hne _ (by omega)
      · simp only [List.mem_cons, List.not_mem_nil, or_false] at hmem
        rcases hmem with rfl | rfl | rfl | rfl <;> exact hne _ (by omega)

theorem toList_octets (s : String) :
    (octets s).data.toList = s.toList.flatMap String.utf8EncodeChar := by
  have hchars : octets s = s.toList.utf8Encode := by
    rw [← String.toByteArray_ofList, String.ofList_toList]
    rfl
  rw [hchars, List.utf8Encode]
  simp

theorem beforeZero_octets {s : String} (hzero : '\x00' ∉ s.toList) :
    Octets.beforeZero (octets s) = octets s := by
  apply Octets.beforeZero_eq_self
  rw [toList_octets, List.mem_flatMap]
  rintro ⟨c, hc, hoctet⟩
  have hne : c ≠ '\x00' := fun h => hzero (h ▸ hc)
  exact octet_ne_of_ne (by decide) hne hoctet rfl

/-! ## Numbers -/

theorem digitValue_digitChar {d : Nat} (hd : d < 10) : digitValue d.digitChar = some d := by
  have hall : ∀ d < 10, digitValue (Nat.digitChar d) = some d := by decide
  exact hall d hd

theorem digitsFrom_append (acc : Nat) (cs ds : List Char) :
    digitsFrom acc (cs ++ ds) = (digitsFrom acc cs).bind fun n => digitsFrom n ds := by
  induction cs generalizing acc with
  | nil => rfl
  | cons c rest ih =>
      simp only [List.cons_append, digitsFrom]
      cases digitValue c with
      | none => rfl
      | some d => exact ih _

theorem digitsFrom_toDigits (n : Nat) : digitsFrom 0 (Nat.toDigits 10 n) = some n := by
  induction n using Nat.strongRecOn with
  | ind n ih =>
      rcases Nat.lt_or_ge n 10 with hn | hn
      · rw [Nat.toDigits_of_lt_base hn]
        simp [digitsFrom, digitValue_digitChar hn]
      · rw [Nat.toDigits_of_base_le (by decide) hn, digitsFrom_append,
          ih (n / 10) (Nat.div_lt_self (by omega) (by decide))]
        have hlast : n % 10 < 10 := Nat.mod_lt n (by decide)
        simp only [Option.bind_some, digitsFrom, digitValue_digitChar hlast, Option.some.injEq]
        omega

theorem natOfDigits_toDigits (n : Nat) : natOfDigits (Nat.toDigits 10 n) = some n := by
  have hdigits : (Nat.toDigits 10 n).isEmpty = false := by
    simp [Nat.toDigits_ne_nil]
  simp only [natOfDigits, hdigits, Bool.false_eq_true, if_false, digitsFrom_toDigits]

theorem isDigit_of_mem_toDigits {n : Nat} : ∀ d ∈ Nat.toDigits 10 n, d.isDigit = true :=
  fun _ hd => Nat.isDigit_of_mem_toDigits (by decide) (by decide) hd

theorem not_mem_toDigits {n : Nat} {c : Char} (hc : c.isDigit = false) :
    c ∉ Nat.toDigits 10 n := by
  intro hmem
  have hdigit := isDigit_of_mem_toDigits c hmem
  rw [hc] at hdigit
  cases hdigit

theorem exists_toDigits_cons (n : Nat) :
    ∃ d ds, Nat.toDigits 10 n = d :: ds ∧ d.isDigit = true := by
  cases hdigits : Nat.toDigits 10 n with
  | nil => exact absurd hdigits Nat.toDigits_ne_nil
  | cons d ds =>
      have hd : d ∈ Nat.toDigits 10 n := by simp [hdigits]
      exact ⟨d, ds, rfl, isDigit_of_mem_toDigits d hd⟩

/-- A number of more than one digit does not start with zero. -/
theorem toDigits_ne_zero_cons (n : Nat) (d : Char) (ds : List Char) :
    Nat.toDigits 10 n ≠ '0' :: d :: ds := by
  induction n using Nat.strongRecOn generalizing d ds with
  | ind n ih =>
      rcases Nat.lt_or_ge n 10 with hn | hn
      · rw [Nat.toDigits_of_lt_base hn]
        simp
      · rw [Nat.toDigits_of_base_le (by decide) hn]
        intro hzero
        obtain ⟨e, es, hfront, -⟩ := exists_toDigits_cons (n / 10)
        rw [hfront, List.cons_append, List.cons.injEq] at hzero
        obtain ⟨rfl, -⟩ := hzero
        cases es with
        | nil =>
            have hvalue := digitsFrom_toDigits (n / 10)
            rw [hfront] at hvalue
            have hnone : n / 10 = 0 := (Option.some.inj hvalue).symm
            omega
        | cons e' es => exact ih (n / 10) (Nat.div_lt_self (by omega) (by decide)) e' es hfront

theorem toList_toString (n : UInt32) : (toString n).toList = Nat.toDigits 10 n.toNat :=
  String.toList_ofList

/-- A number is read back from its decimal text. -/
theorem u32?_toString (n : UInt32) : u32? (toString n) = some n := by
  have hdigits : natOfChars UInt32.size (Nat.toDigits 10 n.toNat) = some n.toNat := by
    unfold natOfChars
    split
    · next rest hplus =>
      have hmem : '+' ∈ Nat.toDigits 10 n.toNat := by simp [hplus]
      exact absurd hmem (not_mem_toDigits (by decide))
    · have hlt : n.toNat < UInt32.size := n.toNat_lt
      simp [natOfDigits_toDigits, below, hlt]
  rw [u32?, toList_toString, hdigits]
  simp

/-! ## White space -/

theorem isBlank_of_isDigit {c : Char} (hdigit : c.isDigit = true) : isBlank c = false := by
  have hrange : 48 ≤ c.toNat ∧ c.toNat ≤ 57 := by
    simpa [Char.isDigit, UInt32.le_iff_toNat_le] using hdigit
  have hall : ∀ n ≤ 57, 48 ≤ n → isBlank (Char.ofNat n) = false := by decide
  rw [← Char.ofNat_toNat c]
  exact hall c.toNat hrange.2 hrange.1

/-- Nothing is left of a text without the white space around it exactly if there is nothing
else. -/
theorem trim_eq_empty_iff {s : String} : trim s = "" ↔ ∀ c ∈ s.toList, isBlank c = true := by
  have hempty : trim s = "" ↔ trimmed s.toList = [] := by
    rw [trim, ← String.toList_inj, String.toList_ofList]
    rfl
  rw [hempty, trimmed, dropTrailing, List.reverse_eq_nil_iff, List.dropWhile_eq_nil_iff]
  simp only [List.mem_reverse]
  constructor
  · intro hrest
    have hnone : s.toList.dropWhile isBlank = [] := by
      by_contra hne
      have hhead := List.head_dropWhile_not isBlank hne
      rw [hrest _ (List.head_mem hne)] at hhead
      cases hhead
    exact List.dropWhile_eq_nil_iff.mp hnone
  · intro hall c hc
    exact hall c ((List.dropWhile_sublist isBlank).subset hc)

/-! ## Beginnings and endings -/

theorem afterPrefix_eq_some_iff {start cs rest : List Char} :
    afterPrefix start cs = some rest ↔ cs = start ++ rest := by
  induction start generalizing cs with
  | nil => simp [afterPrefix]
  | cons c more ih =>
      cases cs with
      | nil => simp [afterPrefix]
      | cons d others =>
          by_cases hsame : c = d
          · simp [afterPrefix, hsame, ih]
          · simp [afterPrefix, hsame, Ne.symm hsame]

theorem stripEnd_eq_some_iff {ending s t : String} :
    stripEnd ending s = some t ↔ s = t ++ ending := by
  have hreversed : ∀ cs : List Char, s.toList.reverse = ending.toList.reverse ++ cs ↔
      s.toList = cs.reverse ++ ending.toList := by
    intro cs
    rw [← List.reverse_inj, List.reverse_reverse, List.reverse_append, List.reverse_reverse]
  rw [stripEnd, Option.map_eq_some_iff]
  simp only [afterPrefix_eq_some_iff, hreversed]
  constructor
  · rintro ⟨cs, hs, rfl⟩
    rw [← String.toList_inj, String.toList_append, String.toList_ofList, hs]
  · rintro rfl
    exact ⟨t.toList.reverse, by simp, by simp⟩

/-! ## Pieces and lines -/

theorem piecesOf_of_not_mem {sep : Char} {cs : List Char} (hsep : sep ∉ cs) :
    piecesOf sep cs = [cs] := by
  induction cs with
  | nil => rfl
  | cons c rest ih =>
      have hc : c ≠ sep := fun h => hsep (by simp [h])
      have hrest : sep ∉ rest := fun h => hsep (List.mem_cons_of_mem _ h)
      simp only [piecesOf, hc, if_false, ih hrest]

/-- A text comes apart at each of its separators. -/
theorem piecesOf_append_sep (sep : Char) (cs ds : List Char) :
    piecesOf sep (cs ++ sep :: ds) = piecesOf sep cs ++ piecesOf sep ds := by
  induction cs with
  | nil => simp only [List.nil_append, piecesOf, if_true, List.cons_append]
  | cons c rest ih =>
      simp only [List.cons_append, piecesOf, ih]
      by_cases hc : c = sep
      · simp only [hc, if_true, List.cons_append]
      · simp only [hc, if_false]
        cases hpieces : piecesOf sep rest with
        | nil => exact absurd hpieces (piecesOf_ne_nil sep rest)
        | cons piece more => rfl

theorem piecesOf_append_cons {sep : Char} {cs : List Char} (hsep : sep ∉ cs) (rest : List Char) :
    piecesOf sep (cs ++ sep :: rest) = cs :: piecesOf sep rest := by
  rw [piecesOf_append_sep, piecesOf_of_not_mem hsep, List.singleton_append]

/-- Each separator at the end adds an empty piece. -/
theorem piecesOf_append_replicate (sep : Char) (cs : List Char) (n : Nat) :
    piecesOf sep (cs ++ List.replicate n sep) = piecesOf sep cs ++ List.replicate n [] := by
  induction n generalizing cs with
  | zero => simp only [List.replicate_zero, List.append_nil]
  | succ n ih =>
      have hrest := ih []
      rw [List.nil_append] at hrest
      rw [List.replicate_succ, piecesOf_append_sep, hrest, piecesOf, List.singleton_append,
        List.replicate_succ]

/-- What comes without a separator belongs to the last piece. -/
theorem exists_piecesOf_append (sep : Char) (cs : List Char) :
    ∃ before last, piecesOf sep cs = before ++ [last] ∧
      ∀ {more : List Char}, sep ∉ more → piecesOf sep (cs ++ more) = before ++ [last ++ more] := by
  induction cs with
  | nil => exact ⟨[], [], rfl, fun hmore => piecesOf_of_not_mem hmore⟩
  | cons c rest ih =>
      obtain ⟨before, last, hrest, hlonger⟩ := ih
      by_cases hc : c = sep
      · refine ⟨[] :: before, last, ?_, fun hmore => ?_⟩
        · simp only [piecesOf, hc, if_true, hrest, List.cons_append]
        · simp only [List.cons_append, piecesOf, hc, if_true, hlonger hmore]
      · cases before with
        | nil =>
            refine ⟨[], c :: last, ?_, fun hmore => ?_⟩
            · simp only [piecesOf, hc, if_false, hrest, List.nil_append]
            · simp only [List.cons_append, piecesOf, hc, if_false, hlonger hmore, List.nil_append]
        | cons first others =>
            refine ⟨(c :: first) :: others, last, ?_, fun hmore => ?_⟩
            · simp only [piecesOf, hc, if_false, hrest, List.cons_append]
            · simp only [List.cons_append, piecesOf, hc, if_false, hlonger hmore]

theorem piecesOf_eq_splitOn (sep : Char) (cs : List Char) : piecesOf sep cs = cs.splitOn sep := by
  have hsep : ∀ piece ∈ piecesOf sep cs, sep ∉ piece := fun _ hpiece =>
    not_mem_of_mem_piecesOf hpiece
  calc
    piecesOf sep cs = ([sep].intercalate (piecesOf sep cs)).splitOn sep :=
      (List.splitOn_intercalate sep hsep (piecesOf_ne_nil sep cs)).symm
    _ = cs.splitOn sep := by rw [intercalate_piecesOf]

/-- What was joined with a separator comes apart again. -/
theorem piecesOf_intercalate {sep : Char} {parts : List (List Char)}
    (hsep : ∀ part ∈ parts, sep ∉ part) (hparts : parts ≠ []) :
    piecesOf sep ([sep].intercalate parts) = parts := by
  rw [piecesOf_eq_splitOn, List.splitOn_intercalate sep hsep hparts]

/-- A text is cut at the first occurrence of a separator. -/
theorem cutAt_eq_some_iff {sep : Char} {cs before after : List Char} :
    cutAt sep cs = some (before, after) ↔ cs = before ++ sep :: after ∧ sep ∉ before := by
  induction cs generalizing before with
  | nil => simp [cutAt]
  | cons c rest ih =>
      simp only [cutAt]
      by_cases hc : c = sep
      · subst hc
        cases before with
        | nil => simp [eq_comm]
        | cons b more => simp +contextual [eq_comm]
      · simp only [hc, if_false, Option.map_eq_some_iff, Prod.exists, Prod.mk.injEq]
        cases before with
        | nil => simp [hc]
        | cons b more =>
            have hne : sep ≠ c := fun e => hc e.symm
            constructor
            · rintro ⟨front, back, hcut, hfront, rfl⟩
              obtain ⟨rfl, rfl⟩ := List.cons.inj hfront
              obtain ⟨rfl, hnot⟩ := ih.mp hcut
              exact ⟨rfl, by simp [hne, hnot]⟩
            · rintro ⟨hsplit, hnot⟩
              obtain ⟨rfl, hrest⟩ := List.cons.inj hsplit
              exact ⟨more, after, ih.mpr ⟨hrest, fun hm => hnot (List.mem_cons_of_mem _ hm)⟩, rfl,
                rfl⟩

theorem cutAt_eq_none_iff {sep : Char} {cs : List Char} : cutAt sep cs = none ↔ sep ∉ cs := by
  induction cs with
  | nil => simp [cutAt]
  | cons c rest ih =>
      by_cases hc : c = sep
      · simp [cutAt, hc]
      · simp [cutAt, hc, ih, Ne.symm hc]

/-- A text is split at the first occurrence of a separator. -/
theorem splitOnce_eq_some_iff {sep : Char} {s before after : String} :
    splitOnce sep s = some (before, after) ↔
      s = before ++ String.singleton sep ++ after ∧ sep ∉ before.toList := by
  have htext : s = before ++ String.singleton sep ++ after ↔
      s.toList = before.toList ++ sep :: after.toList := by
    rw [← String.toList_inj]
    simp
  rw [htext, ← cutAt_eq_some_iff, splitOnce, Option.map_eq_some_iff]
  constructor
  · rintro ⟨⟨front, back⟩, hcut, hpair⟩
    obtain ⟨rfl, rfl⟩ := Prod.mk.inj hpair
    simpa using hcut
  · intro hcut
    exact ⟨_, hcut, by simp⟩

theorem toList_join (parts : List String) :
    (join "" parts).toList = (parts.map String.toList).flatten := by
  rw [join, String.toList_intercalate]
  induction parts with
  | nil => rfl
  | cons part rest ih =>
      cases rest with
      | nil => rfl
      | cons next more =>
          rw [List.map_cons, List.flatten_cons, ← ih]
          rfl

/-- Lines that were ended by line feeds are found again. -/
theorem linesOfPieces_flatMap {ls : List (List Char)}
    (hline : ∀ l ∈ ls, '\n' ∉ l ∧ l.getLast? ≠ some '\r') :
    linesOfPieces (piecesOf '\n' (ls.flatMap fun l => l ++ ['\n'])) = ls := by
  induction ls with
  | nil => rfl
  | cons l rest ih =>
      obtain ⟨hfeed, hreturn⟩ := hline l List.mem_cons_self
      have hrest := ih fun m hm => hline m (List.mem_cons_of_mem _ hm)
      have hkeep : withoutReturn l = l := by
        unfold withoutReturn
        split
        · next hlast => exact absurd hlast hreturn
        · rfl
      rw [List.flatMap_cons, List.append_assoc, List.singleton_append, piecesOf_append_cons hfeed]
      cases hpieces : piecesOf '\n' (rest.flatMap fun l => l ++ ['\n']) with
      | nil => exact absurd hpieces (piecesOf_ne_nil _ _)
      | cons piece more =>
          rw [hpieces] at hrest
          rw [linesOfPieces, hkeep, hrest]
          simp

/-- A text of lines is read line by line. -/
theorem lines_join {ls : List String}
    (hline : ∀ l ∈ ls, '\n' ∉ l.toList ∧ l.toList.getLast? ≠ some '\r') :
    lines (join "" (ls.map (· ++ "\n"))) = ls := by
  have htext : (join "" (ls.map (· ++ "\n"))).toList =
      (ls.map String.toList).flatMap fun l => l ++ ['\n'] := by
    rw [toList_join, List.map_map, List.flatMap_map, List.flatMap_def]
    congr 1
    exact List.map_congr_left fun l _ => String.toList_append
  have hchars : ∀ l ∈ ls.map String.toList, '\n' ∉ l ∧ l.getLast? ≠ some '\r' := by
    intro l hl
    obtain ⟨s, hs, rfl⟩ := List.mem_map.mp hl
    exact hline s hs
  rw [lines, htext, linesOfPieces_flatMap hchars, List.map_map]
  simp [Function.comp_def]

/-! ## Parts that were joined -/

theorem intercalate_append_cons (sep : Char) {parts : List (List Char)} (hne : parts ≠ [])
    (part : List Char) (more : List (List Char)) :
    [sep].intercalate (parts ++ part :: more) =
      [sep].intercalate parts ++ sep :: [sep].intercalate (part :: more) := by
  induction parts with
  | nil => exact absurd rfl hne
  | cons first rest ih =>
      cases rest with
      | nil => simp [List.intercalate_cons_cons]
      | cons next others =>
          have hrest := ih (List.cons_ne_nil _ _)
          rw [List.cons_append] at hrest
          rw [List.cons_append, List.cons_append, List.intercalate_cons_cons, hrest,
            List.intercalate_cons_cons]
          simp only [List.append_assoc]

theorem mem_of_mem_intercalate {sep c : Char} {parts : List (List Char)}
    (hc : c ∈ [sep].intercalate parts) : c = sep ∨ ∃ part ∈ parts, c ∈ part := by
  induction parts with
  | nil => simp at hc
  | cons part rest ih =>
      cases rest with
      | nil => exact Or.inr ⟨part, by simp, by simpa using hc⟩
      | cons next others =>
          rw [List.intercalate_cons_cons, List.mem_append, List.mem_append,
            List.mem_singleton] at hc
          rcases hc with (hpart | hsep) | hrest
          · exact Or.inr ⟨part, by simp, hpart⟩
          · exact Or.inl hsep
          · exact (ih hrest).imp_right fun ⟨p, hp, hcp⟩ => ⟨p, List.mem_cons_of_mem _ hp, hcp⟩

/-- What was joined starts with its first part and a separator if more follows. -/
theorem exists_intercalate_append (sep : Char) (part : List Char) (parts : List (List Char))
    (more : List Char) :
    ∃ rest, [sep].intercalate (part :: parts) ++ sep :: more = part ++ sep :: rest := by
  cases parts with
  | nil => exact ⟨more, by simp⟩
  | cons next others =>
      exact ⟨[sep].intercalate (next :: others) ++ sep :: more, by
        simp [List.intercalate_cons_cons]⟩

/-- A list of characters does not start where its first character does not stand. -/
theorem cutAtList_append_of_not_mem {c : Char} {xs : List Char} (hxs : c ∉ xs)
    (more rest : List Char) :
    cutAtList (c :: more) (xs ++ rest) =
      (cutAtList (c :: more) rest).map fun (before, after) => (xs ++ before, after) := by
  induction xs with
  | nil => simp
  | cons x others ih =>
      have hx : c ≠ x := fun h => hxs (by simp [h])
      have hothers : c ∉ others := fun h => hxs (List.mem_cons_of_mem _ h)
      rw [List.cons_append, cutAtList, afterPrefix, if_neg hx, ih hothers, Option.map_map]
      rfl

/-! ## Ends of a text -/

/-- Dropping a trailing character takes away all of its repetitions at the end. -/
theorem dropTrailing_eq_iff {x : Char} {cs ds : List Char} (hlast : ds.getLast? ≠ some x) :
    dropTrailing (· == x) cs = ds ↔ ∃ n, cs = ds ++ List.replicate n x := by
  constructor
  · rintro rfl
    have hsplit := List.takeWhile_append_dropWhile (p := (· == x)) (l := cs.reverse)
    have htail : cs.reverse.takeWhile (· == x) =
        List.replicate (cs.reverse.takeWhile (· == x)).length x := by
      apply List.eq_replicate_of_mem
      intro c hc
      simpa using List.mem_takeWhile_imp hc
    refine ⟨(cs.reverse.takeWhile (· == x)).length, ?_⟩
    rw [htail] at hsplit
    simpa [dropTrailing] using (congrArg List.reverse hsplit).symm
  · rintro ⟨n, rfl⟩
    have hkept : ds.reverse.dropWhile (· == x) = ds.reverse := by
      apply List.dropWhile_eq_self_iff.mpr
      intro hpos hx
      refine hlast ?_
      rw [← List.head?_reverse, List.head?_eq_getElem?, List.getElem?_eq_getElem hpos]
      exact congrArg some (by simpa using hx)
    simp [dropTrailing, hkept]

end Text
end ContainerLaunch
