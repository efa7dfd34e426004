import ContainerLaunch.Json.Printer
import ContainerLaunch.Proofs.Json.Values
import ContainerLaunch.Proofs.Text
import Mathlib.Data.List.TakeDrop
/-!
# Numbers are read back

The text of a number that a text can hold is read as that number.  An integer comes back
through its digits.  The decimal for a double comes back through any of its writings: the
point may stand among its digits, before them or after them, zeros may fill up the places
to the point, and an exponent may move it.
-/

namespace ContainerLaunch.Json

/-! ## Runs of digits -/

theorem digitRun_append {ds rest : List Char} (hds : ∀ d ∈ ds, d.isDigit = true)
    (hrest : ∀ c ∈ rest.head?, c.isDigit = false) : digitRun (ds ++ rest) = (ds, rest) := by
  rw [digitRun, List.span_eq_takeWhile_dropWhile, List.takeWhile_append_of_pos hds,
    List.dropWhile_append_of_pos hds]
  cases rest with
  | nil => simp
  | cons c more =>
      have hc : c.isDigit = false := hrest c rfl
      simp [hc]

theorem head_not_isDigit {c : Char} (hc : c.isDigit = false) (cs : List Char) :
    ∀ d ∈ (c :: cs).head?, d.isDigit = false := by
  rintro d ⟨⟩
  exact hc

theorem digitsValue_concat (ds : List Char) (d : Char) :
    digitsValue (ds ++ [d]) = digitsValue ds * 10 + (d.toNat - '0'.toNat) := by
  rw [digitsValue, List.foldl_append]
  rfl

theorem digitsValue_toDigits (n : Nat) : digitsValue (Nat.toDigits 10 n) = n := by
  induction n using Nat.strongRecOn with
  | ind n ih =>
      have hdigit : ∀ d < 10, (Nat.digitChar d).toNat - '0'.toNat = d := by decide
      rcases Nat.lt_or_ge n 10 with hn | hn
      · rw [Nat.toDigits_of_lt_base hn]
        exact (Nat.zero_add _).trans (hdigit n hn)
      · have hrest := ih (n / 10) (Nat.div_lt_self (by omega) (by decide))
        have hlast := hdigit (n % 10) (Nat.mod_lt n (by decide))
        rw [Nat.toDigits_of_base_le (by decide) hn, digitsValue_concat, hrest, hlast]
        omega

/-- The digits of a number start with a zero only if it is zero. -/
theorem toDigits_ne_zero_cons {n : Nat} (hn : n ≠ 0) (ds : List Char) :
    Nat.toDigits 10 n ≠ '0' :: ds := by
  cases ds with
  | nil =>
      intro hzero
      have hvalue := digitsValue_toDigits n
      rw [hzero] at hvalue
      exact hn hvalue.symm
  | cons d ds => exact Text.toDigits_ne_zero_cons n d ds

/-- A run of digits. -/
structure IsRun (ds : List Char) : Prop where
  digits : ∀ d ∈ ds, d.isDigit = true
  ne_nil : ds ≠ []

/-- A run of digits that may stand before a point: it starts with a zero only if that is
all. -/
structure IsWhole (ds : List Char) : Prop extends IsRun ds where
  leading : ∀ d more, ds ≠ '0' :: d :: more

theorem isWhole_toDigits (n : Nat) : IsWhole (Nat.toDigits 10 n) where
  digits := Text.isDigit_of_mem_toDigits
  ne_nil := Nat.toDigits_ne_nil
  leading := Text.toDigits_ne_zero_cons n

theorem isWhole_singleton {d : Char} (hd : d.isDigit = true) : IsWhole [d] where
  digits := by simpa using hd
  ne_nil := by simp
  leading := by simp

/-- The digits of a number other than zero, up to any place, may stand before a point, and
so may they with zeros after them. -/
theorem isWhole_of_start {n : Nat} (hn : n ≠ 0) {ds : List Char} (hds : ∀ d ∈ ds, d.isDigit = true)
    (hstart : ds.head? = (Nat.toDigits 10 n).head?) : IsWhole ds where
  digits := hds
  ne_nil := by
    rintro rfl
    obtain ⟨d, more, hcons, -⟩ := Text.exists_toDigits_cons n
    rw [hcons] at hstart
    cases hstart
  leading := by
    rintro d more rfl
    obtain ⟨e, es, hcons, -⟩ := Text.exists_toDigits_cons n
    rw [hcons] at hstart
    cases hstart
    exact toDigits_ne_zero_cons hn es hcons

theorem wholePart_append {ds rest : List Char} (hds : IsWhole ds)
    (hrest : ∀ c ∈ rest.head?, c.isDigit = false) : wholePart (ds ++ rest) = some (ds, rest) := by
  rw [wholePart, digitRun_append hds.digits hrest]
  split
  · next hnil => exact absurd (congrArg Prod.fst hnil) hds.ne_nil
  · next hcons => exact absurd (congrArg Prod.fst hcons) (hds.leading _ _)
  · next heq =>
    cases heq
    rfl

theorem fractionPart_append {ds rest : List Char} (hds : IsRun ds)
    (hrest : ∀ c ∈ rest.head?, c.isDigit = false) :
    fractionPart ('.' :: (ds ++ rest)) = some (ds, rest) := by
  rw [fractionPart, digitRun_append hds.digits hrest]
  split
  · next hnil => exact absurd (congrArg Prod.fst hnil) hds.ne_nil
  · next heq =>
    cases heq
    rfl

theorem isDigit_of_mem_zeros {k : Nat} : ∀ d ∈ List.replicate k '0', d.isDigit = true := by
  intro d hd
  rw [List.eq_of_mem_replicate hd]
  rfl

/-- Zeros before the first digit add nothing. -/
theorem digitsValue_zeros_append (k : Nat) (ds : List Char) :
    digitsValue (List.replicate k '0' ++ ds) = digitsValue ds := by
  induction k with
  | zero => rfl
  | succ k ih => exact ih

/-! ## The parts of a number -/

/-- What may follow a value in a text: nothing, or what ends an item or a field. -/
def Ends (rest : List Char) : Prop :=
  ∀ c ∈ rest.head?, c = ',' ∨ c = ']' ∨ c = '\x7d'

theorem ends_nil : Ends [] := by
  simp [Ends]

theorem ends_cons {c : Char} (hc : c = ',' ∨ c = ']' ∨ c = '\x7d') (rest : List Char) :
    Ends (c :: rest) := by
  simpa [Ends] using hc

theorem Ends.not_isDigit {rest : List Char} (hrest : Ends rest) :
    ∀ c ∈ rest.head?, c.isDigit = false := by
  intro c hc
  rcases hrest c hc with rfl | rfl | rfl <;> decide

theorem fractionPart_of_ne {rest : List Char} (hrest : rest.head? ≠ some '.') :
    fractionPart rest = some ([], rest) := by
  unfold fractionPart
  split
  · exact absurd rfl hrest
  · rfl

theorem exponentPart_of_ends {rest : List Char} (hrest : Ends rest) :
    exponentPart rest = some (none, rest) := by
  cases rest with
  | nil => rfl
  | cons c more =>
      rcases hrest c rfl with rfl | rfl | rfl <;> rfl

theorem toList_toString_int (n : Int) :
    (toString n).toList =
      if 0 ≤ n then Nat.toDigits 10 n.toNat else '-' :: Nat.toDigits 10 n.natAbs := by
  cases n with
  | ofNat m =>
      rw [if_pos (show 0 ≤ Int.ofNat m from Int.natCast_nonneg m)]
      exact String.toList_ofList
  | negSucc m =>
      rw [if_neg (Int.not_le.mpr (Int.negSucc_lt_zero m))]
      have htext : toString (Int.negSucc m) = "-" ++ toString (m + 1) := rfl
      rw [htext, String.toList_append]
      exact congrArg ('-' :: ·) String.toList_ofList

theorem exponentDigits_toDigits (negative : Bool) (n : Nat) {rest : List Char}
    (hrest : Ends rest) :
    exponentDigits negative (Nat.toDigits 10 n ++ rest) =
      some (some (if negative then -(n : Int) else n), rest) := by
  rw [exponentDigits, digitRun_append Text.isDigit_of_mem_toDigits hrest.not_isDigit]
  split
  · next hnil => exact absurd (congrArg Prod.fst hnil) Nat.toDigits_ne_nil
  · next heq =>
    cases heq
    rw [digitsValue_toDigits]

theorem exponentPart_of_isDigit {d : Char} (hd : d.isDigit = true) (cs : List Char) :
    exponentPart ('e' :: d :: cs) = exponentDigits false (d :: cs) := by
  rw [exponentPart]
  all_goals
    rintro rest ⟨⟩
    revert hd
    decide

theorem exponentPart_toString (exponent : Int) {rest : List Char} (hrest : Ends rest) :
    exponentPart ('e' :: ((toString exponent).toList ++ rest)) = some (some exponent, rest) := by
  rw [toList_toString_int]
  split
  · next hpos =>
    have hdigits := exponentDigits_toDigits false exponent.toNat hrest
    obtain ⟨d, ds, hcons, hd⟩ := Text.exists_toDigits_cons exponent.toNat
    rw [hcons, List.cons_append] at hdigits ⊢
    rw [exponentPart_of_isDigit hd, hdigits, if_neg Bool.false_ne_true, Int.toNat_of_nonneg hpos]
  · next hneg =>
    have hvalue : -(exponent.natAbs : Int) = exponent := by omega
    rw [List.cons_append, exponentPart, exponentDigits_toDigits true _ hrest, if_pos rfl, hvalue]

theorem readUnsigned_of_parts {cs afterWhole afterFraction rest whole fraction : List Char}
    {exponent : Option Int} (negative : Bool) (hwhole : wholePart cs = some (whole, afterWhole))
    (hfraction : fractionPart afterWhole = some (fraction, afterFraction))
    (hexponent : exponentPart afterFraction = some (exponent, rest)) :
    readUnsigned negative cs =
      some (if fraction.isEmpty && exponent.isNone then integerOf negative (digitsValue whole)
        else realOf negative (digitsValue (whole ++ fraction))
          (exponent.getD 0 - (fraction.length : Int)), rest) := by
  simp only [readUnsigned, hwhole, hfraction, hexponent, Option.bind_eq_bind, Option.bind_some]
  split <;> rfl

theorem readUnsigned_integer (negative : Bool) (n : Nat) {rest : List Char} (hrest : Ends rest) :
    readUnsigned negative (Nat.toDigits 10 n ++ rest) = some (integerOf negative n, rest) := by
  have hpoint : rest.head? ≠ some '.' := by
    intro hdot
    rcases hrest '.' hdot with h | h | h <;> exact absurd h (by decide)
  have hwhole := wholePart_append (isWhole_toDigits n) hrest.not_isDigit
  have hread := readUnsigned_of_parts negative hwhole (fractionPart_of_ne hpoint)
    (exponentPart_of_ends hrest)
  rwa [digitsValue_toDigits] at hread

/-! ## Decimals -/

/-- Zeros after the last digit count in the exponent. -/
theorem realOf_append_zeros (negative : Bool) (ds : List Char) (k : Nat) (exponent : Int) :
    realOf negative (digitsValue (ds ++ List.replicate k '0')) exponent =
      realOf negative (digitsValue ds) (exponent + k) := by
  induction k generalizing exponent with
  | zero => simp
  | succ k ih =>
      have hexponent : exponent + 1 + k = exponent + (k + 1 : Nat) := by omega
      rw [List.replicate_succ', ← List.append_assoc, digitsValue_concat, Nat.sub_self,
        Nat.add_zero, ← hexponent, ← ih]
      rw [realOf, realOf, Decimal.rounded_mul_ten]

theorem readUnsigned_point (negative : Bool) {whole fraction rest : List Char}
    (hwhole : IsWhole whole) (hfraction : IsRun fraction) (hrest : Ends rest) :
    readUnsigned negative (whole ++ '.' :: (fraction ++ rest)) =
      some (realOf negative (digitsValue (whole ++ fraction)) (-(fraction.length : Int)),
        rest) := by
  have hread := readUnsigned_of_parts negative
    (wholePart_append hwhole (head_not_isDigit rfl _))
    (fractionPart_append hfraction hrest.not_isDigit) (exponentPart_of_ends hrest)
  have hsome : fraction.isEmpty = false := by simpa using hfraction.ne_nil
  simpa [hsome] using hread

theorem readUnsigned_exponent (negative : Bool) {whole rest : List Char} (hwhole : IsWhole whole)
    (exponent : Int) (hrest : Ends rest) :
    readUnsigned negative (whole ++ 'e' :: ((toString exponent).toList ++ rest)) =
      some (realOf negative (digitsValue whole) exponent, rest) := by
  have hread := readUnsigned_of_parts negative
    (wholePart_append hwhole (head_not_isDigit (c := 'e') rfl _)) rfl
    (exponentPart_toString exponent hrest)
  simpa using hread

theorem readUnsigned_point_exponent (negative : Bool) {whole fraction rest : List Char}
    (hwhole : IsWhole whole) (hfraction : IsRun fraction) (exponent : Int) (hrest : Ends rest) :
    readUnsigned negative
        (whole ++ '.' :: (fraction ++ 'e' :: ((toString exponent).toList ++ rest))) =
      some (realOf negative (digitsValue (whole ++ fraction)) (exponent - fraction.length),
        rest) := by
  have hread := readUnsigned_of_parts negative
    (wholePart_append hwhole (head_not_isDigit rfl _))
    (fractionPart_append hfraction (head_not_isDigit rfl _))
    (exponentPart_toString exponent hrest)
  simpa using hread

theorem readUnsigned_zeros_before_point (negative : Bool) {n k : Nat} (hzero : n = 0 → k = 0)
    {rest : List Char} (hrest : Ends rest) :
    readUnsigned negative (Nat.toDigits 10 n ++ List.replicate k '0' ++ ['.', '0'] ++ rest) =
      some (realOf negative n k, rest) := by
  have hwhole : IsWhole (Nat.toDigits 10 n ++ List.replicate k '0') := by
    rcases Nat.eq_zero_or_pos n with rfl | hpos
    · rw [hzero rfl]
      simpa using isWhole_toDigits 0
    · refine isWhole_of_start (Nat.ne_of_gt hpos) ?_ ?_
      · exact List.forall_mem_append.mpr ⟨Text.isDigit_of_mem_toDigits, isDigit_of_mem_zeros⟩
      · obtain ⟨d, ds, hcons, -⟩ := Text.exists_toDigits_cons n
        rw [hcons]
        rfl
  have hread := readUnsigned_point negative hwhole (isWhole_singleton (d := '0') rfl).toIsRun hrest
  have hexponent : -(([('0' : Char)].length : Nat) : Int) + (k + 1 : Nat) = k := by
    rw [List.length_singleton]
    omega
  rw [List.append_assoc _ _ ['0'], ← List.replicate_succ', realOf_append_zeros, hexponent,
    digitsValue_toDigits] at hread
  simpa using hread

theorem readUnsigned_point_among_digits (negative : Bool) {n p : Nat} (hn : n ≠ 0) (hp : 0 < p)
    (hlast : p < (Nat.toDigits 10 n).length) {rest : List Char} (hrest : Ends rest) :
    readUnsigned negative
        ((Nat.toDigits 10 n).take p ++ '.' :: (Nat.toDigits 10 n).drop p ++ rest) =
      some (realOf negative n (p - (Nat.toDigits 10 n).length), rest) := by
  have hwhole : IsWhole ((Nat.toDigits 10 n).take p) := by
    refine isWhole_of_start hn (fun d hd => ?_) ?_
    · exact Text.isDigit_of_mem_toDigits d (List.mem_of_mem_take hd)
    · rw [List.head?_take, if_neg (by omega)]
  have hfraction : IsRun ((Nat.toDigits 10 n).drop p) := by
    refine ⟨fun d hd => Text.isDigit_of_mem_toDigits d (List.mem_of_mem_drop hd), ?_⟩
    rw [ne_eq, List.drop_eq_nil_iff]
    omega
  have hread := readUnsigned_point negative hwhole hfraction hrest
  have hexponent : -(((Nat.toDigits 10 n).length - p : Nat) : Int) =
      p - (Nat.toDigits 10 n).length := by
    omega
  rw [List.take_append_drop, digitsValue_toDigits, List.length_drop, hexponent] at hread
  simpa using hread

theorem readUnsigned_zeros_after_point (negative : Bool) (n k : Nat) {rest : List Char}
    (hrest : Ends rest) :
    readUnsigned negative
        ('0' :: '.' :: List.replicate k '0' ++ Nat.toDigits 10 n ++ rest) =
      some (realOf negative n (-(k + (Nat.toDigits 10 n).length)), rest) := by
  have hfraction : IsRun (List.replicate k '0' ++ Nat.toDigits 10 n) :=
    ⟨List.forall_mem_append.mpr ⟨isDigit_of_mem_zeros, Text.isDigit_of_mem_toDigits⟩,
      by simp [Nat.toDigits_ne_nil]⟩
  have hread := readUnsigned_point negative (isWhole_singleton (d := '0') rfl) hfraction hrest
  have hvalue : digitsValue (['0'] ++ (List.replicate k '0' ++ Nat.toDigits 10 n)) = n := by
    rw [← List.append_assoc, List.singleton_append, ← List.replicate_succ,
      digitsValue_zeros_append, digitsValue_toDigits]
  rw [hvalue, List.length_append, List.length_replicate, Int.natCast_add] at hread
  simpa using hread

theorem readUnsigned_scientific (negative : Bool) (n : Nat) (exponent : Int) {rest : List Char}
    (hrest : Ends rest) :
    readUnsigned negative
        ((Nat.toDigits 10 n).take 1 ++
          (if (Nat.toDigits 10 n).length = 1 then [] else '.' :: (Nat.toDigits 10 n).tail) ++
          'e' :: (toString exponent).toList ++ rest) =
      some (realOf negative n (exponent + 1 - (Nat.toDigits 10 n).length), rest) := by
  have hvalue := digitsValue_toDigits n
  obtain ⟨d, more, hcons, hd⟩ := Text.exists_toDigits_cons n
  have hmore : ∀ e ∈ more, e.isDigit = true := fun e he =>
    Text.isDigit_of_mem_toDigits e (hcons ▸ List.mem_cons_of_mem d he)
  have hwhole := isWhole_singleton hd
  rw [hcons] at hvalue ⊢
  cases more with
  | nil =>
      have hread := readUnsigned_exponent negative hwhole exponent hrest
      rw [hvalue] at hread
      simpa using hread
  | cons e es =>
      have hread := readUnsigned_point_exponent negative hwhole ⟨hmore, by simp⟩ exponent hrest
      have hexponent : exponent - ((e :: es).length : Nat) =
          exponent + 1 - ((d :: e :: es).length : Nat) := by
        simp only [List.length_cons]
        omega
      have hjoined : digitsValue ([d] ++ e :: es) = n := hvalue
      rw [hjoined, hexponent] at hread
      simpa using hread

/-- A trimmed decimal is read from its text, however that is written. -/
theorem readUnsigned_chars (negative : Bool) {x : Decimal} (hx : x.Trimmed) {rest : List Char}
    (hrest : Ends rest) :
    readUnsigned negative (x.chars ++ rest) =
      some (realOf negative x.digits x.exponent, rest) := by
  have hzero : x.digits = 0 → x.exponent = 0 := hx.exponent_eq_zero
  unfold Decimal.chars
  dsimp only
  split
  · next hpoint =>
    have hread := readUnsigned_zeros_before_point negative (n := x.digits) (k := x.exponent.toNat)
      (fun h => by rw [hzero h]; rfl) hrest
    rwa [Int.toNat_of_nonneg hpoint.1] at hread
  · split
    · next hfar hpoint =>
      obtain ⟨p, hp⟩ := Int.eq_ofNat_of_zero_le (Int.le_of_lt hpoint.1)
      have hread := readUnsigned_point_among_digits negative (n := x.digits) (p := p)
        (fun h => by have := hzero h; omega) (by omega) (by omega) hrest
      have hexponent : (p : Int) - (Nat.toDigits 10 x.digits).length = x.exponent := by omega
      rw [hexponent] at hread
      rwa [hp]
    · split
      · next hfar hlow hpoint =>
        obtain ⟨k, hk⟩ := Int.eq_ofNat_of_zero_le (Int.neg_nonneg_of_nonpos hpoint.2)
        have hread := readUnsigned_zeros_after_point negative x.digits k hrest
        have hexponent : -((k : Int) + (Nat.toDigits 10 x.digits).length) = x.exponent := by omega
        rw [hexponent] at hread
        rwa [hk]
      · have hread := readUnsigned_scientific negative x.digits
          ((Nat.toDigits 10 x.digits).length + x.exponent - 1) hrest
        have hexponent : ((Nat.toDigits 10 x.digits).length : Int) + x.exponent - 1 + 1 -
            (Nat.toDigits 10 x.digits).length = x.exponent := by
          omega
        rwa [hexponent] at hread

/-- The text of a decimal starts with a digit. -/
theorem exists_decimalChars_cons (x : Decimal) :
    ∃ d cs, x.chars = d :: cs ∧ d.isDigit = true := by
  obtain ⟨d, more, hcons, hd⟩ := Text.exists_toDigits_cons x.digits
  unfold Decimal.chars
  rw [hcons]
  dsimp only
  split
  · exact ⟨d, _, rfl, hd⟩
  · split
    · next hpoint =>
      obtain ⟨p, hp⟩ := Int.eq_succ_of_zero_lt hpoint.1
      rw [hp]
      exact ⟨d, _, rfl, hd⟩
    · split
      · exact ⟨'0', _, rfl, rfl⟩
      · exact ⟨d, _, rfl, hd⟩

/-! ## Numbers -/

theorem readNumber_of_isDigit {d : Char} (hd : d.isDigit = true) (cs : List Char) :
    readNumber (d :: cs) = readUnsigned false (d :: cs) := by
  rw [readNumber]
  rintro rest ⟨⟩
  revert hd
  decide

theorem integerOf_toNat {n : Int} (hpos : 0 ≤ n) (hhigh : n < UInt64.size) :
    integerOf false n.toNat = .number (.int n) := by
  have hsize : n.toNat < UInt64.size := by omega
  rw [integerOf, if_neg Bool.false_ne_true, if_pos hsize, Json.int, Int.toNat_of_nonneg hpos]

theorem integerOf_natAbs {n : Int} (hneg : n < 0) (hlow : Int64.minValue.toInt ≤ n) :
    integerOf true n.natAbs = .number (.int n) := by
  have hvalue : -(n.natAbs : Int) = n := by omega
  have hzero : n.natAbs ≠ 0 := by omega
  rw [integerOf, if_pos rfl, hvalue, if_neg (by rintro (h | h) <;> omega), Json.int]

/-- A number in range is read back. -/
theorem readNumber_chars {n : Number} (hrange : n.InRange) {rest : List Char}
    (hrest : Ends rest) : readNumber (n.chars ++ rest) = some (.number n, rest) := by
  cases n with
  | int n =>
      obtain ⟨hlow, hhigh⟩ := hrange
      rw [Number.chars, toList_toString_int]
      split
      · next hpos =>
        have hread := readUnsigned_integer false n.toNat hrest
        obtain ⟨d, ds, hcons, hd⟩ := Text.exists_toDigits_cons n.toNat
        rw [hcons, List.cons_append] at hread ⊢
        rw [readNumber_of_isDigit hd, hread, integerOf_toNat hpos hhigh]
      · next hneg =>
        rw [List.cons_append, readNumber, readUnsigned_integer true _ hrest,
          integerOf_natAbs (by omega) hlow]
  | real negative size =>
      obtain ⟨htrimmed, hrounded⟩ := hrange
      have hread := readUnsigned_chars negative htrimmed hrest
      rw [realOf, hrounded] at hread
      cases negative with
      | true => exact hread
      | false =>
          obtain ⟨d, cs, hcons, hd⟩ := exists_decimalChars_cons size
          rw [hcons, List.cons_append] at hread
          rw [Number.chars, hcons]
          exact (readNumber_of_isDigit hd _).trans hread

/-- The text of a number starts with a digit or a sign. -/
theorem exists_numberChars_cons (n : Number) :
    ∃ c cs, n.chars = c :: cs ∧ (c.isDigit = true ∨ c = '-') := by
  cases n with
  | int n =>
      rw [Number.chars, toList_toString_int]
      split
      · obtain ⟨d, ds, hcons, hd⟩ := Text.exists_toDigits_cons n.toNat
        exact ⟨d, ds, hcons, .inl hd⟩
      · exact ⟨'-', _, rfl, .inr rfl⟩
  | real negative size =>
      cases negative with
      | true => exact ⟨'-', _, rfl, .inr rfl⟩
      | false =>
          obtain ⟨d, cs, hcons, hd⟩ := exists_decimalChars_cons size
          exact ⟨d, cs, hcons, .inl hd⟩

end ContainerLaunch.Json
