import DelegationStrategy.Lib.Rounding
import Mathlib.Data.Int.Log

/-!
# Numbers in binary64

An integer as a double has 53 significant bits: it is rounded to a multiple of a power of two,
its *unit in the last place*. Below `2 ^ 53` the unit is one. A rational number may have a unit
that is a fraction (`roundBinary64`).

- `toBinary64_of_lt`: small integers are exact.
- `toBinary64_ne_of_lt`: integers that are more than a unit apart stay apart.
- `binary64Sub_eq_zero_iff`: a difference is zero for equal operands only.
- `roundBinary64_mono`: a larger number is not rounded to a smaller double.
- `roundBinary64_mem_unit`: so a number between zero and one stays there.
-/

namespace DelegationStrategy.Lib

/-- The distance of the doubles around an integer. -/
def ulp (n : ℤ) : ℤ := 2 ^ (n.natAbs.log2 - 52)

/-- The double nearest to an integer, a midpoint to the even one. -/
def toBinary64 (n : ℤ) : ℤ := roundHalfEven ((n : ℚ) / ulp n) * ulp n

/-- The subtraction of doubles that are integers. -/
def binary64Sub (a b : ℤ) : ℤ := toBinary64 (a - b)

/-! ## Units -/

theorem ulp_pos (n : ℤ) : 0 < ulp n := pow_pos (by decide) _

theorem ulp_le_natAbs {n : ℤ} (hn : n ≠ 0) : ulp n ≤ n.natAbs := by
  have hlog : 2 ^ (n.natAbs.log2 - 52) ≤ n.natAbs :=
    (Nat.pow_le_pow_right (by decide) (Nat.sub_le _ _)).trans
      (Nat.log2_self_le (Int.natAbs_ne_zero.mpr hn))
  unfold ulp
  exact_mod_cast hlog

/-- Integers of `k` bits have at most `k - 53` bits to lose. -/
theorem ulp_le_of_lt {n : ℤ} {k : ℕ} (h : n.natAbs < 2 ^ k) : ulp n ≤ 2 ^ (k - 53) := by
  unfold ulp
  refine pow_le_pow_right₀ (by decide) ?_
  by_cases hn : n.natAbs = 0
  · rw [hn]
    simp
  · have hlog := (Nat.log2_lt hn).mpr h
    omega

theorem ulp_of_lt {n : ℤ} (h : n.natAbs < 2 ^ 53) : ulp n = 1 :=
  le_antisymm (ulp_le_of_lt h) (ulp_pos n)

/-! ## Conversions -/

/-- Small integers are doubles. -/
theorem toBinary64_of_lt {n : ℤ} (h : n.natAbs < 2 ^ 53) : toBinary64 n = n := by
  unfold toBinary64
  rw [ulp_of_lt h, Int.cast_one, div_one, mul_one]
  exact isRounding_roundHalfEven.round_intCast n

/-- A conversion moves an integer by at most half a unit. -/
theorem toBinary64_error (n : ℤ) : 2 * |toBinary64 n - n| ≤ ulp n := by
  have hpos : (0 : ℚ) < ulp n := by exact_mod_cast ulp_pos n
  have herror := isRounding_roundHalfEven.error ((n : ℚ) / ulp n)
  have hsplit : ((toBinary64 n - n : ℤ) : ℚ) =
      (roundHalfEven ((n : ℚ) / ulp n) - (n : ℚ) / ulp n) * ulp n := by
    unfold toBinary64
    push_cast
    field_simp
  have habs : |((toBinary64 n - n : ℤ) : ℚ)| ≤ 1 / 2 * ulp n := by
    rw [hsplit, abs_mul, abs_of_pos hpos]
    exact mul_le_mul_of_nonneg_right herror hpos.le
  have hcast : (2 : ℚ) * |((toBinary64 n - n : ℤ) : ℚ)| ≤ ulp n := by linarith
  exact_mod_cast hcast

/-- **Integers that are more than a unit apart** stay apart. -/
theorem toBinary64_ne_of_lt {m n u : ℤ} (hm : ulp m ≤ u) (hn : ulp n ≤ u) (h : u < |m - n|) :
    toBinary64 m ≠ toBinary64 n := by
  intro heq
  have herrorm := toBinary64_error m
  have herrorn := toBinary64_error n
  rw [heq] at herrorm
  have hm' := abs_le.mp (show |toBinary64 n - m| ≤ u / 2 by omega)
  have hn' := abs_le.mp (show |toBinary64 n - n| ≤ u / 2 by omega)
  rcases abs_cases (m - n) with ⟨hcase, -⟩ | ⟨hcase, -⟩ <;> omega

/-- Only zero is rounded to zero. -/
theorem toBinary64_eq_zero_iff {n : ℤ} : toBinary64 n = 0 ↔ n = 0 := by
  refine ⟨fun h => ?_, fun h => by rw [h, toBinary64_of_lt (by decide)]⟩
  by_contra hn
  have herror := toBinary64_error n
  have hulp := ulp_le_natAbs hn
  have hpos := ulp_pos n
  rw [h, zero_sub, abs_neg, Int.abs_eq_natAbs] at herror
  omega

theorem binary64Sub_eq_zero_iff {a b : ℤ} : binary64Sub a b = 0 ↔ a = b := by
  unfold binary64Sub
  rw [toBinary64_eq_zero_iff, sub_eq_zero]

/-- The neighbours of `10 ^ 16` are two away; a midpoint goes to the even one. -/
example : (toBinary64 (10 ^ 16 + 1), toBinary64 (10 ^ 16 + 3), toBinary64 (2 ^ 53 + 1)) =
    (10 ^ 16, 10 ^ 16 + 4, 2 ^ 53) := by
  decide +kernel

/-! ## Fractions -/

/-- The exponent of the distance of the doubles around a number; below `2 ^ (-1022)` doubles do
not come closer. -/
def ulpExp (x : ℚ) : ℤ := max (Int.log 2 |x|) (-1022) - 52

/-- The double nearest to a number below `2 ^ 1024`, a midpoint to the even one. -/
def roundBinary64 (x : ℚ) : ℚ := roundHalfEven (x / 2 ^ ulpExp x) * 2 ^ ulpExp x

section Fractions

variable {x y : ℚ} {e : ℤ}

/-- A power of two that is not below the unit is a multiple of it. -/
theorem exists_zpow_div (h : ulpExp x ≤ e) : ∃ n : ℤ, (2 : ℚ) ^ e / 2 ^ ulpExp x = n := by
  obtain ⟨k, hk⟩ := Int.le.dest h
  refine ⟨2 ^ k, ?_⟩
  rw [← zpow_sub₀ (by norm_num), show e - ulpExp x = k by omega, zpow_natCast]
  norm_cast

theorem zpow_le_roundBinary64 (h : ulpExp x ≤ e) (hx : (2 : ℚ) ^ e ≤ x) :
    (2 : ℚ) ^ e ≤ roundBinary64 x := by
  have hpos : (0 : ℚ) < 2 ^ ulpExp x := zpow_pos (by norm_num) _
  obtain ⟨n, hn⟩ := exists_zpow_div h
  unfold roundBinary64
  rw [← div_le_iff₀ hpos, hn]
  have hle := isRounding_roundHalfEven.le_round (hn ▸ div_le_div_of_nonneg_right hx hpos.le)
  exact_mod_cast hle

theorem roundBinary64_le_zpow (h : ulpExp x ≤ e) (hx : x ≤ (2 : ℚ) ^ e) :
    roundBinary64 x ≤ (2 : ℚ) ^ e := by
  have hpos : (0 : ℚ) < 2 ^ ulpExp x := zpow_pos (by norm_num) _
  obtain ⟨n, hn⟩ := exists_zpow_div h
  unfold roundBinary64
  rw [← le_div_iff₀ hpos, hn]
  have hle := isRounding_roundHalfEven.round_le (hn ▸ div_le_div_of_nonneg_right hx hpos.le)
  exact_mod_cast hle

@[simp] theorem roundBinary64_zero : roundBinary64 0 = 0 := by
  have hzero := isRounding_roundHalfEven.round_intCast (K := ℚ) 0
  rw [Int.cast_zero] at hzero
  unfold roundBinary64
  rw [zero_div, hzero, Int.cast_zero, zero_mul]

theorem roundBinary64_nonneg (h : 0 ≤ x) : 0 ≤ roundBinary64 x := by
  have hpos : (0 : ℚ) < 2 ^ ulpExp x := zpow_pos (by norm_num) _
  refine mul_nonneg ?_ hpos.le
  exact_mod_cast isRounding_roundHalfEven.round_nonneg (div_nonneg h hpos.le)

theorem roundBinary64_nonpos (h : x ≤ 0) : roundBinary64 x ≤ 0 := by
  have hpos : (0 : ℚ) < 2 ^ ulpExp x := zpow_pos (by norm_num) _
  refine mul_nonpos_of_nonpos_of_nonneg ?_ hpos.le
  have hscaled : x / 2 ^ ulpExp x ≤ ((0 : ℤ) : ℚ) := by
    rw [Int.cast_zero]
    exact div_nonpos_of_nonpos_of_nonneg h hpos.le
  exact_mod_cast isRounding_roundHalfEven.round_le hscaled

/-- **Rounding is monotone**, also where the unit changes: a power of two lies between. -/
theorem roundBinary64_mono (hx : 0 ≤ x) (h : x ≤ y) : roundBinary64 x ≤ roundBinary64 y := by
  obtain rfl | hx := hx.eq_or_lt
  · rw [roundBinary64_zero]
    exact roundBinary64_nonneg h
  have hy := hx.trans_le h
  have hlog : Int.log 2 |x| ≤ Int.log 2 |y| := by
    rw [abs_of_pos hx, abs_of_pos hy]
    exact Int.log_mono_right hx h
  by_cases hexp : ulpExp x = ulpExp y
  · have hpos : (0 : ℚ) < 2 ^ ulpExp y := zpow_pos (by norm_num) _
    unfold roundBinary64
    rw [hexp]
    refine mul_le_mul_of_nonneg_right ?_ hpos.le
    exact_mod_cast isRounding_roundHalfEven.monotone (div_le_div_of_nonneg_right h hpos.le)
  · have hlt : Int.log 2 |x| + 1 ≤ Int.log 2 |y| ∧ ulpExp x ≤ Int.log 2 |y| ∧
        ulpExp y ≤ Int.log 2 |y| := by
      unfold ulpExp at hexp ⊢
      omega
    have hbelow : x ≤ (2 : ℚ) ^ Int.log 2 |y| := by
      have hsucc := Int.lt_zpow_succ_log_self (b := 2) (by decide) |x|
      have hpow := zpow_le_zpow_right₀ (a := (2 : ℚ)) (by norm_num) hlt.1
      calc x ≤ |x| := le_abs_self x
        _ ≤ (2 : ℚ) ^ (Int.log 2 |x| + 1) := by exact_mod_cast hsucc.le
        _ ≤ (2 : ℚ) ^ Int.log 2 |y| := hpow
    have habove : (2 : ℚ) ^ Int.log 2 |y| ≤ y := by
      have hself := Int.zpow_log_le_self (b := 2) (by decide) hy
      rw [abs_of_pos hy]
      exact_mod_cast hself
    exact (roundBinary64_le_zpow hlt.2.1 hbelow).trans (zpow_le_roundBinary64 hlt.2.2 habove)

theorem roundBinary64_one : roundBinary64 1 = 1 := by
  have hexp : ulpExp 1 ≤ 0 := by decide
  have hle := roundBinary64_le_zpow hexp (by norm_num)
  have hge := zpow_le_roundBinary64 hexp (by norm_num)
  rw [zpow_zero] at hle hge
  exact le_antisymm hle hge

/-- **Between zero and one** a number stays there. -/
theorem roundBinary64_mem_unit (h₀ : 0 ≤ x) (h₁ : x ≤ 1) :
    0 ≤ roundBinary64 x ∧ roundBinary64 x ≤ 1 :=
  ⟨roundBinary64_nonneg h₀, (roundBinary64_mono h₀ h₁).trans_eq roundBinary64_one⟩

/-- **Below one half** is what is below the midpoint of one half and the double before it. -/
theorem roundBinary64_lt_half_iff : roundBinary64 x < 1 / 2 ↔ x < 1 / 2 - 1 / 2 ^ 55 := by
  constructor
  · intro h
    by_contra hle
    have hmidpoint : roundBinary64 (1 / 2 - 1 / 2 ^ 55) = 1 / 2 := by decide +kernel
    have hmono := roundBinary64_mono (x := 1 / 2 - 1 / 2 ^ 55) (by norm_num) (not_lt.mp hle)
    rw [hmidpoint] at hmono
    exact absurd h (not_lt.mpr hmono)
  · intro h
    rcases le_total x (1 / 4) with hsmall | hlarge
    · rcases le_total x 0 with hneg | hpos
      · exact (roundBinary64_nonpos hneg).trans_lt (by norm_num)
      · have hquarter : roundBinary64 (1 / 4) < 1 / 2 := by decide +kernel
        exact (roundBinary64_mono hpos hsmall).trans_lt hquarter
    · -- the unit between one quarter and one half
      have hexp : ulpExp x = -54 := by
        have hlog : Int.log 2 |x| = -2 := by
          rw [abs_of_nonneg (by linarith)]
          refine le_antisymm ?_ ?_
          · have hlt := (Int.lt_zpow_iff_log_lt (b := 2) (by decide) (x := -1) (r := x)
              (by linarith)).mp (by norm_num at h ⊢; linarith)
            omega
          · exact (Int.zpow_le_iff_le_log (b := 2) (by decide) (by linarith)).mp
              (by norm_num at hlarge ⊢; linarith)
        unfold ulpExp
        rw [hlog]
        norm_num
      have hscaled : x / 2 ^ (-54 : ℤ) < ((2 ^ 53 : ℤ) : ℚ) - 1 / 2 := by
        norm_num at h ⊢
        linarith
      have hround : (roundHalfEven (x / 2 ^ (-54 : ℤ)) : ℚ) < 2 ^ 53 := by
        exact_mod_cast isRounding_roundHalfEven.round_lt hscaled
      unfold roundBinary64
      rw [hexp]
      norm_num at hround ⊢
      linarith

/-- **Of integers** the two conversions are the same. -/
theorem roundBinary64_intCast (n : ℤ) : roundBinary64 n = toBinary64 n := by
  by_cases hn : n = 0
  · rw [hn, Int.cast_zero, roundBinary64_zero, toBinary64_of_lt (by decide), Int.cast_zero]
  have hlog : ulpExp n = (n.natAbs.log2 : ℤ) - 52 := by
    have habs : |(n : ℚ)| = (n.natAbs : ℚ) := by rw [Nat.cast_natAbs, Int.cast_abs]
    unfold ulpExp
    rw [habs, Int.log_natCast, ← Nat.log2_eq_log_two]
    omega
  by_cases hbig : 52 ≤ n.natAbs.log2
  · have hulp : (2 : ℚ) ^ ulpExp n = ulp n := by
      rw [hlog, show (n.natAbs.log2 : ℤ) - 52 = (n.natAbs.log2 - 52 : ℕ) by omega, zpow_natCast]
      unfold ulp
      push_cast
      rfl
    unfold roundBinary64 toBinary64
    rw [hulp]
    push_cast
    rfl
  · have hsmall : n.natAbs < 2 ^ 53 := (Nat.log2_lt (by omega)).mp (by omega)
    have hpos : (0 : ℚ) < 2 ^ ulpExp n := zpow_pos (by norm_num) _
    obtain ⟨unit, hunit⟩ := exists_zpow_div (x := n) (e := 0) (by omega)
    have hscaled : (n : ℚ) / 2 ^ ulpExp n = (n * unit : ℤ) := by
      rw [Int.cast_mul, ← hunit, zpow_zero, mul_one_div]
    unfold roundBinary64
    rw [hscaled, isRounding_roundHalfEven.round_intCast, ← hscaled, div_mul_cancel₀ _ hpos.ne',
      toBinary64_of_lt hsmall]

end Fractions

/-- A third has no last digit. -/
example : roundBinary64 (1 / 3) = 6004799503160661 / 2 ^ 54 := by decide +kernel

end DelegationStrategy.Lib
