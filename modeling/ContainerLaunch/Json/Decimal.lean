/-!
# Decimals for doubles

A number that is not an integer of 64 bits stands for a double, the one nearest
to what is written.  It is kept as a decimal that is read as that double and has
as few digits as such a decimal can have; of several the nearest one.
-/

namespace ContainerLaunch.Json

/-- Digits times a power of ten. -/
structure Decimal where
  digits : Nat
  exponent : Int
  deriving DecidableEq, Repr, Inhabited

namespace Decimal

/-- A decimal without zeros at the end of its digits. -/
def trimmed (digits : Nat) (exponent : Int) : Decimal :=
  if digits = 0 then ⟨0, 0⟩
  else if digits % 10 = 0 then trimmed (digits / 10) (exponent + 1)
  else ⟨digits, exponent⟩

/-- The double nearest to a decimal; it may be infinite. -/
def double (x : Decimal) : Float.Model :=
  .ofScientific x.digits x.exponent

/-- The two multiples of 10 ^ `scale` around `mantissa` * 2 ^ `exponent`: first the
nearer one, or the even one if they are equally near. -/
def around (mantissa : Nat) (exponent scale : Int) : List Decimal :=
  let whole := mantissa * Nat.pow 2 exponent.toNat * Nat.pow 10 (-scale).toNat
  let unit := Nat.pow 2 (-exponent).toNat * Nat.pow 10 scale.toNat
  let low := trimmed (whole / unit) scale
  let high := trimmed (whole / unit + 1) scale
  let twice := 2 * (whole % unit)
  if twice < unit ∨ (twice = unit ∧ whole / unit % 2 = 0) then [low, high] else [high, low]

/-- The decimals around a double, those with fewer digits first. -/
def near (d : Float.Model) : List Decimal :=
  match d.unpack with
  | .finite _ mantissa exponent _ =>
    -- From the greatest power of ten among the doubles to the first below all of them.
    (List.range 633).flatMap fun (i : Nat) => around mantissa exponent (308 - i)
  | _ => [trimmed 0 0]

/-- The decimal with the fewest digits that is read as a double. -/
def shortest (d : Float.Model) : Option Decimal :=
  (near d).find? fun x => x.double = d

/-- The decimal for the double nearest to what is written; none if that is
infinite. -/
def rounded (digits : Nat) (exponent : Int) : Option Decimal :=
  let x := trimmed digits exponent
  -- Seventeen digits tell any double apart, so a shortest decimal is always found.
  if x.double.isFinite then some ((shortest x.double).getD x) else none

/-- The text of a decimal: with its point where few zeros are needed for that, and
else with an exponent. -/
def chars (x : Decimal) : List Char :=
  let digits := Nat.toDigits 10 x.digits
  -- How many digits stand before the point.
  let point : Int := digits.length + x.exponent
  if 0 ≤ x.exponent ∧ point ≤ 16 then
    digits ++ List.replicate x.exponent.toNat '0' ++ ['.', '0']
  else if 0 < point ∧ point ≤ 16 then
    digits.take point.toNat ++ '.' :: digits.drop point.toNat
  else if -5 < point ∧ point ≤ 0 then
    '0' :: '.' :: List.replicate (-point).toNat '0' ++ digits
  else
    let fraction := if digits.length = 1 then [] else '.' :: digits.tail
    digits.take 1 ++ fraction ++ 'e' :: (toString (point - 1)).toList

/-! ## Decimals without zeros at the end -/

theorem trimmed_zero (exponent : Int) : trimmed 0 exponent = ⟨0, 0⟩ := by
  rw [trimmed, if_pos rfl]

/-- A zero at the end of the digits counts as one more in the exponent. -/
theorem trimmed_mul_ten (digits : Nat) (exponent : Int) :
    trimmed (digits * 10) exponent = trimmed digits (exponent + 1) := by
  rcases Nat.eq_zero_or_pos digits with rfl | hpos
  · rw [Nat.zero_mul, trimmed_zero, trimmed_zero]
  · have hdiv : digits * 10 / 10 = digits := Nat.mul_div_cancel digits (by decide)
    rw [trimmed, if_neg (by omega), if_pos (Nat.mul_mod_left digits 10), hdiv]

/-- A decimal with no zeros to trim. -/
def Trimmed (x : Decimal) : Prop :=
  trimmed x.digits x.exponent = x

theorem trimmed_trimmed (digits : Nat) (exponent : Int) : (trimmed digits exponent).Trimmed := by
  fun_induction trimmed digits exponent with
  | case1 => exact trimmed_zero 0
  | case2 digits exponent hzero hten ih => exact ih
  | case3 digits exponent hzero hten =>
      unfold Trimmed
      rw [trimmed, if_neg hzero, if_neg hten]

/-- Only the zero has no digits but zeros, and it has no exponent. -/
theorem Trimmed.exponent_eq_zero {x : Decimal} (hx : x.Trimmed) (hzero : x.digits = 0) :
    x.exponent = 0 := by
  unfold Trimmed at hx
  rw [hzero, trimmed_zero] at hx
  rw [← hx]

/-! ## Decimals that stand for doubles -/

theorem trimmed_of_mem_around {x : Decimal} {mantissa : Nat} {exponent scale : Int}
    (hx : x ∈ around mantissa exponent scale) : x.Trimmed := by
  simp only [around] at hx
  split at hx
  all_goals
    simp only [List.mem_cons, List.not_mem_nil, or_false] at hx
    rcases hx with rfl | rfl <;> exact trimmed_trimmed _ _

theorem trimmed_of_mem_near {x : Decimal} {d : Float.Model} (hx : x ∈ near d) : x.Trimmed := by
  unfold near at hx
  split at hx
  · obtain ⟨i, -, hx⟩ := List.mem_flatMap.mp hx
    exact trimmed_of_mem_around hx
  · obtain rfl := List.mem_singleton.mp hx
    exact trimmed_trimmed 0 0

theorem shortest_spec {x : Decimal} {d : Float.Model} (hx : shortest d = some x) :
    x.Trimmed ∧ x.double = d :=
  ⟨trimmed_of_mem_near (List.mem_of_find?_eq_some hx), by simpa using List.find?_some hx⟩

/-- The decimal for a double is trimmed, and it is read as itself. -/
theorem rounded_spec {x : Decimal} {digits : Nat} {exponent : Int}
    (hx : rounded digits exponent = some x) :
    x.Trimmed ∧ rounded x.digits x.exponent = some x := by
  simp only [rounded, Option.ite_none_right_eq_some, Option.some.injEq] at hx
  obtain ⟨hfinite, hx⟩ := hx
  cases hshort : shortest (trimmed digits exponent).double with
  | none =>
      rw [hshort, Option.getD_none] at hx
      have htrimmed := trimmed_trimmed digits exponent
      rw [hx] at htrimmed hfinite hshort
      refine ⟨htrimmed, ?_⟩
      rw [rounded, htrimmed, if_pos hfinite, hshort, Option.getD_none]
  | some y =>
      rw [hshort, Option.getD_some] at hx
      subst hx
      obtain ⟨htrimmed, hdouble⟩ := shortest_spec hshort
      refine ⟨htrimmed, ?_⟩
      rw [rounded, htrimmed, hdouble, if_pos hfinite, hshort, Option.getD_some]

theorem rounded_mul_ten (digits : Nat) (exponent : Int) :
    rounded (digits * 10) exponent = rounded digits (exponent + 1) := by
  rw [rounded, rounded, trimmed_mul_ten]

end Decimal
end ContainerLaunch.Json
