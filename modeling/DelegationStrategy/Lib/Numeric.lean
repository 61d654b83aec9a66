import DelegationStrategy.Lib.Binary64
import Mathlib.Algebra.Order.Field.Power
import Mathlib.Tactic.FieldSimp
import Mathlib.Tactic.Positivity

/-!
# Quotients of decimals

A `NUMERIC` of PostgreSQL is an integer with the number of its digits behind the point, the
*scale*. A quotient is rounded to a scale that leaves it 16 significant digits (`divScale`); an
average is such a quotient. In a program it becomes a double.

- `zpow_quotientWeight_le`: the estimate that the scale is made of is not too large.
- `digits_div_eq_zero_iff`: so a quotient is zero for a dividend of zero only.
- `value_div_bounds`: the relative error of a quotient.
- `toDouble_div_lt_half_iff`: which quotients are doubles below one half.

The limit of 1000 digits behind the point is left out: numbers that are less than 900 digits
apart do not come near it.
-/

namespace DelegationStrategy.Lib

/-- The number `digits / 10 ^ scale`. -/
structure Numeric where
  digits : ℤ
  scale : ℕ
  deriving DecidableEq, Repr

namespace Numeric

def value (a : Numeric) : ℚ := a.digits / 10 ^ a.scale

/-- An integer has no digits behind the point. -/
def ofNat (n : ℕ) : Numeric := ⟨n, 0⟩

/-! ## Division -/

/-- The place of the first digit to the base 10000. -/
def weight (x : ℚ) : ℤ := Int.log 10000 |x|

/-- The first digit to the base 10000. -/
def firstDigit (x : ℚ) : ℤ := ⌊|x| / 10000 ^ weight x⌋

/-- The place of the first digit of a quotient, estimated from the first digits. Of equal ones
the dividend is taken to be the smaller number. -/
def quotientWeight (x y : ℚ) : ℤ :=
  if firstDigit x ≤ firstDigit y then weight x - weight y - 1 else weight x - weight y

/-- `select_div_scale`. -/
def divScale (a b : Numeric) : ℕ :=
  max (max (16 - 4 * quotientWeight a.value b.value).toNat a.scale) b.scale

/-- A quotient whose divisor is not zero. -/
def div (a b : Numeric) : Numeric where
  digits := roundHalfAway (a.value / b.value * 10 ^ divScale a b)
  scale := divScale a b

/-- A quotient of values that may be `NULL`: the inner `none` is `NULL`, the outer one the error
that 0 divides nothing. -/
def sqlDiv : Option Numeric → Option Numeric → Option (Option Numeric)
  | some a, some b => if b.digits = 0 then none else some (some (a.div b))
  | _, _ => some none

/-- `AVG` of integers; of nothing it is `NULL`. -/
def avg (xs : List ℕ) : Option Numeric :=
  if xs = [] then none else some ((ofNat xs.sum).div (ofNat xs.length))

/-- `::double precision`. -/
def toDouble (a : Numeric) : ℚ := roundBinary64 a.value

/-- The three quotients of a weighted average, each rounded: the last digits are lost. -/
example : ((ofNat (4 * 10 ^ 21 + 400001)).div (ofNat 3)).div ((ofNat (10 ^ 16 + 1)).div (ofNat 3)) =
    ⟨400000 * 10 ^ 12, 12⟩ := by
  decide +kernel

/-! ## Values -/

@[simp] theorem value_ofNat (n : ℕ) : (ofNat n).value = n := by simp [value, ofNat]

theorem value_eq_zero_iff {a : Numeric} : a.value = 0 ↔ a.digits = 0 := by
  have hpow : (10 : ℚ) ^ a.scale ≠ 0 := by positivity
  unfold value
  rw [div_eq_zero_iff, or_iff_left hpow, Int.cast_eq_zero]

theorem sqlDiv_eq_some {a b : Numeric} {q : Option Numeric}
    (h : sqlDiv (some a) (some b) = some q) : b.digits ≠ 0 ∧ q = some (a.div b) := by
  obtain ⟨hb, h⟩ := Option.ite_none_left_eq_some.mp h
  exact ⟨hb, (Option.some.inj h).symm⟩

theorem avg_of_ne_nil {xs : List ℕ} (h : xs ≠ []) :
    avg xs = some ((ofNat xs.sum).div (ofNat xs.length)) := if_neg h

/-! ## Significant digits -/

section Digits

variable {x y : ℚ}

theorem zpow_weight_le (hx : 0 < x) : (10000 : ℚ) ^ weight x ≤ x := by
  unfold weight
  rw [abs_of_pos hx]
  exact_mod_cast Int.zpow_log_le_self (b := 10000) (by decide) hx

theorem lt_zpow_weight (hx : 0 < x) : x < (10000 : ℚ) ^ (weight x + 1) := by
  unfold weight
  rw [abs_of_pos hx]
  exact_mod_cast Int.lt_zpow_succ_log_self (b := 10000) (by decide) x

/-- A number lies between its first digit and the next one. -/
theorem firstDigit_bounds (hx : 0 < x) :
    firstDigit x * (10000 : ℚ) ^ weight x ≤ x ∧
      x < (firstDigit x + 1) * (10000 : ℚ) ^ weight x := by
  have hpow : (0 : ℚ) < 10000 ^ weight x := by positivity
  unfold firstDigit
  rw [abs_of_pos hx]
  exact ⟨(le_div_iff₀ hpow).mp (Int.floor_le _), (div_lt_iff₀ hpow).mp (Int.lt_floor_add_one _)⟩

/-- **The estimate** is not too large. -/
theorem zpow_quotientWeight_le (hx : 0 < x) (hy : 0 < y) :
    (10000 : ℚ) ^ quotientWeight x y ≤ x / y := by
  have hbase : (10000 : ℚ) ≠ 0 := by norm_num
  have hpow : (0 : ℚ) < 10000 ^ weight y := by positivity
  rw [le_div_iff₀ hy]
  unfold quotientWeight
  split
  · calc (10000 : ℚ) ^ (weight x - weight y - 1) * y
        ≤ 10000 ^ (weight x - weight y - 1) * 10000 ^ (weight y + 1) := by
          gcongr
          exact (lt_zpow_weight hy).le
      _ = 10000 ^ weight x := by
          rw [← zpow_add₀ hbase]
          congr 1
          omega
      _ ≤ x := zpow_weight_le hx
  · rename_i hdigit
    have hnext : ((firstDigit y + 1 : ℤ) : ℚ) ≤ firstDigit x := by
      exact_mod_cast Int.add_one_le_iff.mpr (not_le.mp hdigit)
    push_cast at hnext
    calc (10000 : ℚ) ^ (weight x - weight y) * y
        ≤ 10000 ^ (weight x - weight y) * ((firstDigit y + 1) * 10000 ^ weight y) := by
          gcongr
          exact (firstDigit_bounds hy).2.le
      _ = (firstDigit y + 1) * 10000 ^ weight x := by
          rw [zpow_sub₀ hbase]
          field_simp
      _ ≤ firstDigit x * 10000 ^ weight x := by gcongr
      _ ≤ x := (firstDigit_bounds hx).1

end Digits

section Quotients

variable {a b : Numeric}

/-- A quotient has 16 digits in front of the place to which it is rounded. -/
theorem sixteenDigits (ha : 0 < a.value) (hb : 0 < b.value) :
    (10 : ℚ) ^ 16 ≤ a.value / b.value * 10 ^ divScale a b := by
  have hscale : 16 - 4 * quotientWeight a.value b.value ≤ divScale a b := by
    unfold divScale
    omega
  calc (10 : ℚ) ^ 16
      = 10000 ^ quotientWeight a.value b.value *
          10 ^ (16 - 4 * quotientWeight a.value b.value) := by
        rw [show (10000 : ℚ) = 10 ^ (4 : ℤ) by norm_num, ← zpow_mul, ← zpow_add₀ (by norm_num)]
        norm_num
    _ ≤ a.value / b.value * 10 ^ (divScale a b : ℤ) := by
        gcongr
        · exact zpow_quotientWeight_le ha hb
        · norm_num
    _ = a.value / b.value * 10 ^ divScale a b := by rw [zpow_natCast]

theorem value_div_nonneg (ha : 0 ≤ a.value) (hb : 0 < b.value) : 0 ≤ (a.div b).value := by
  have hdigits : 0 ≤ (a.div b).digits :=
    isRounding_roundHalfAway.round_nonneg (by positivity)
  unfold value
  positivity

theorem value_div_eq_zero (h : a.value / b.value = 0) : (a.div b).value = 0 := by
  have hround := isRounding_roundHalfAway.round_intCast (K := ℚ) 0
  rw [Int.cast_zero] at hround
  refine value_eq_zero_iff.mpr ?_
  show roundHalfAway (a.value / b.value * 10 ^ divScale a b) = 0
  rw [h, zero_mul, hround]

/-- **The error of a quotient** is below half a unit of its sixteenth digit. -/
theorem value_div_bounds (ha : 0 ≤ a.value) (hb : 0 < b.value) :
    |(a.div b).value - a.value / b.value| ≤ a.value / b.value / (2 * 10 ^ 16) := by
  have hpow : (0 : ℚ) < 10 ^ divScale a b := by positivity
  have hsplit : (a.div b).value - a.value / b.value =
      (roundHalfAway (a.value / b.value * 10 ^ divScale a b) -
        a.value / b.value * 10 ^ divScale a b) / 10 ^ divScale a b := by
    show (roundHalfAway _ : ℚ) / 10 ^ divScale a b - _ = _
    field_simp
  rcases ha.eq_or_lt with hzero | hpos
  · have hquotient : a.value / b.value = 0 := by rw [← hzero, zero_div]
    rw [value_div_eq_zero hquotient, hquotient]
    norm_num
  · have herror := isRounding_roundHalfAway.error (a.value / b.value * 10 ^ divScale a b)
    have hdigits := sixteenDigits hpos hb
    rw [hsplit, abs_div, abs_of_pos hpow, div_le_iff₀ hpow]
    calc _ ≤ (1 / 2 : ℚ) := herror
      _ ≤ a.value / b.value * 10 ^ divScale a b / (2 * 10 ^ 16) := by
          rw [le_div_iff₀ (by positivity)]
          linarith
      _ = _ := by ring

/-- **A quotient is zero** for a dividend of zero only. -/
theorem digits_div_eq_zero_iff (ha : 0 ≤ a.value) (hb : 0 < b.value) :
    (a.div b).digits = 0 ↔ a.value = 0 := by
  have hbounds := value_div_bounds ha hb
  rw [← value_eq_zero_iff]
  constructor
  · intro hzero
    rw [hzero, zero_sub, abs_neg, abs_of_nonneg (by positivity)] at hbounds
    have hquotient : a.value / b.value = 0 := by
      have hnonneg : 0 ≤ a.value / b.value := by positivity
      refine le_antisymm ?_ hnonneg
      rw [le_div_iff₀ (by positivity)] at hbounds
      linarith
    exact (div_eq_zero_iff.mp hquotient).resolve_right hb.ne'
  · intro hzero
    exact value_div_eq_zero (by rw [hzero, zero_div])

theorem value_div_pos (ha : 0 < a.value) (hb : 0 < b.value) : 0 < (a.div b).value := by
  refine lt_of_le_of_ne (value_div_nonneg ha.le hb) fun hzero => ha.ne' ?_
  exact (digits_div_eq_zero_iff ha.le hb).mp (value_eq_zero_iff.mp hzero.symm)

/-- **The quotient of two averages** over the same count, with three errors. -/
theorem value_div_div_bounds {n : Numeric} (ha : 0 ≤ a.value) (hb : 0 < b.value)
    (hn : 0 < n.value) :
    |((a.div n).div (b.div n)).value - a.value / b.value| ≤ a.value / b.value / 10 ^ 15 := by
  have hdividend := abs_le.mp (value_div_bounds ha hn)
  have hdivisor := abs_le.mp (value_div_bounds hb.le hn)
  have hpos : 0 < (b.div n).value := value_div_pos hb hn
  have hnonneg : 0 ≤ (a.div n).value := value_div_nonneg ha hn
  have herror := abs_le.mp (value_div_bounds hnonneg hpos)
  have hexact : a.value / n.value / (b.value / n.value) = a.value / b.value :=
    div_div_div_cancel_right₀ hn.ne' _ _
  have hexact₀ : 0 ≤ a.value / b.value := by positivity
  have hx : 0 ≤ a.value / n.value := by positivity
  have hy : 0 < b.value / n.value := by positivity
  generalize a.value / n.value = x at hdividend hexact hx
  generalize b.value / n.value = y at hdivisor hexact hy
  have habove : (a.div n).value / (b.div n).value ≤
      a.value / b.value * ((1 + 1 / (2 * 10 ^ 16)) / (1 - 1 / (2 * 10 ^ 16))) := by
    rw [← hexact, div_mul_div_comm]
    gcongr
    · linarith
    · linarith
  have hbelow : a.value / b.value * ((1 - 1 / (2 * 10 ^ 16)) / (1 + 1 / (2 * 10 ^ 16))) ≤
      (a.div n).value / (b.div n).value := by
    rw [← hexact, div_mul_div_comm]
    gcongr
    · linarith
    · linarith
  rw [abs_le]
  norm_num at habove hbelow herror ⊢
  constructor <;> linarith

/-! ## Below one half -/

/-- From here on the quotient is rounded to the double one half. -/
def halfBar (a b : Numeric) : ℚ :=
  b.value * ((⌈(1 / 2 - 1 / 2 ^ 55) * (10 : ℚ) ^ divScale a b⌉ - 1 / 2) / 10 ^ divScale a b)

/-- **A quotient as a double is below one half** exactly if the dividend is below the bar. -/
theorem toDouble_div_lt_half_iff (ha : 0 ≤ a.value) (hb : 0 < b.value) :
    (a.div b).toDouble < 1 / 2 ↔ a.value < halfBar a b := by
  have hpow : (0 : ℚ) < 10 ^ divScale a b := by positivity
  have hquotient : 0 ≤ a.value / b.value * 10 ^ divScale a b := by positivity
  unfold toDouble halfBar
  rw [roundBinary64_lt_half_iff]
  show (roundHalfAway _ : ℚ) / 10 ^ divScale a b < _ ↔ _
  rw [div_lt_iff₀ hpow, ← Int.lt_ceil, roundHalfAway_lt_iff hquotient, ← lt_div_iff₀ hpow,
    div_lt_iff₀ hb, mul_comm b.value]

/-- A dividend that is not close to half of the divisor is on the same side of that and of the
bar. -/
theorem toDouble_div_lt_half_iff_of_apart (ha : 0 ≤ a.value) (hb : 0 < b.value)
    (h : b.value / 10 ^ 15 < |2 * a.value - b.value|) :
    (a.div b).toDouble < 1 / 2 ↔ 2 * a.value < b.value := by
  obtain ⟨hlo, hhi⟩ := abs_le.mp (value_div_bounds ha hb)
  have hmargin : 0 < b.value / 10 ^ 15 := by positivity
  unfold toDouble
  rw [roundBinary64_lt_half_iff]
  rcases lt_abs.mp h with habove | hbelow
  · refine iff_of_false (not_lt.mpr ?_) (by linarith)
    have hquotient : 1 / 2 + 1 / (2 * 10 ^ 15) < a.value / b.value := by
      rw [lt_div_iff₀ hb]
      linarith
    have herror : a.value / b.value / (2 * 10 ^ 16) ≤
        a.value / b.value - 1 / 2 + 1 / 2 ^ 55 := by
      rw [div_le_iff₀ (by norm_num)]
      norm_num at hquotient ⊢
      linarith
    linarith
  · refine iff_of_true ?_ (by linarith)
    have hquotient : a.value / b.value < 1 / 2 - 1 / (2 * 10 ^ 15) := by
      rw [div_lt_iff₀ hb]
      linarith
    have herror : a.value / b.value / (2 * 10 ^ 16) <
        1 / 2 - 1 / 2 ^ 55 - a.value / b.value := by
      rw [div_lt_iff₀ (by norm_num)]
      norm_num at hquotient ⊢
      linarith
    linarith

end Quotients

end Numeric

end DelegationStrategy.Lib
