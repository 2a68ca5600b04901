import Mathlib.Algebra.Order.Field.Power
import Mathlib.Data.Int.Log
import Mathlib.Data.Rat.Floor
import Mathlib.Tactic.FieldSimp
import Mathlib.Tactic.Linarith
import Mathlib.Tactic.NormNum
import Mathlib.Tactic.Positivity

/-!
# Rounding to double precision

Correct rounding of nonnegative rationals to 53 significant bits, ties to even. There is no largest
exponent and no subnormal number, so the results are those of IEEE 754 binary64 in the range of its
normal numbers, and for zero.

* `roundEven`: the nearest integer, `nearest`: the nearest number with 53 significant bits;
* `nearest_mono`, `nearest_natCast`: rounding keeps the order, and integers below `2 ^ 53`;
* `nearest_le_quotient_iff`: for quotients of small integers, comparing what was rounded is to
  compare the quotients.
-/

namespace Binary64

/-- The nearest integer, and the even one of two that are equally near. -/
def roundEven (q : ℚ) : ℤ :=
  if Int.fract q < 1 / 2 then ⌊q⌋
  else if 1 / 2 < Int.fract q then ⌊q⌋ + 1
  else if ⌊q⌋ % 2 = 0 then ⌊q⌋
  else ⌊q⌋ + 1

/-- The distance of the numbers with 53 significant bits around `q`. -/
def ulp (q : ℚ) : ℚ := 2 ^ (Int.log 2 q - 52)

/-- The nearest number with 53 significant bits. -/
def nearest (q : ℚ) : ℚ := roundEven (q / ulp q) * ulp q

variable {p q : ℚ}

/-! ## Integers -/

theorem floor_le_roundEven (q : ℚ) : ⌊q⌋ ≤ roundEven q := by
  unfold roundEven
  split_ifs <;> omega

theorem roundEven_le_floor_add_one (q : ℚ) : roundEven q ≤ ⌊q⌋ + 1 := by
  unfold roundEven
  split_ifs <;> omega

@[simp]
theorem roundEven_intCast (n : ℤ) : roundEven n = n := by
  simp [roundEven]

/-- The rounded number is at most one half away. -/
theorem abs_roundEven_sub_le (q : ℚ) : |(roundEven q : ℚ) - q| ≤ 1 / 2 := by
  have hsum := Int.floor_add_fract q
  have hnonneg := Int.fract_nonneg q
  have hlt := Int.fract_lt_one q
  rw [abs_le]
  unfold roundEven
  split_ifs <;> push_cast <;> constructor <;> linarith

theorem roundEven_mono (h : p ≤ q) : roundEven p ≤ roundEven q := by
  rcases (Int.floor_mono h).lt_or_eq with hlt | heq
  · -- another integer lies in between
    have hp := roundEven_le_floor_add_one p
    have hq := floor_le_roundEven q
    omega
  · have hfract : Int.fract p ≤ Int.fract q := by
      rw [Int.fract, Int.fract, heq]
      linarith
    unfold roundEven
    rw [heq]
    split_ifs <;> first | omega | (exfalso; linarith)

/-! ## Numbers with 53 significant bits -/

theorem ulp_pos (q : ℚ) : 0 < ulp q := zpow_pos two_pos _

@[simp]
theorem nearest_zero : nearest 0 = 0 := by
  have hzero : roundEven 0 = 0 := by simpa using roundEven_intCast 0
  rw [nearest, zero_div, hzero, Int.cast_zero, zero_mul]

/-- A power of two as a multiple of the distance. -/
theorem zpow_div_ulp (n : ℕ) (e : ℤ) (q : ℚ) (hulp : ulp q = 2 ^ (e - 52)) :
    (2 : ℚ) ^ (e + n) / ulp q = ((2 ^ (52 + n) : ℤ) : ℚ) := by
  rw [hulp, ← zpow_sub₀ two_ne_zero]
  push_cast
  rw [← zpow_natCast]
  congr 1
  push_cast
  ring

theorem zpow_log_le_nearest (hq : 0 < q) : (2 : ℚ) ^ Int.log 2 q ≤ nearest q := by
  have hlow : (2 : ℚ) ^ Int.log 2 q ≤ q := by
    exact_mod_cast Int.zpow_log_le_self (b := 2) one_lt_two hq
  have hpow := zpow_div_ulp 0 (Int.log 2 q) q rfl
  have hround := roundEven_mono (div_le_div_of_nonneg_right hlow (ulp_pos q).le)
  simp only [Nat.cast_zero, add_zero] at hpow
  rw [hpow, roundEven_intCast] at hround
  rw [nearest, ← div_le_iff₀ (ulp_pos q), hpow]
  exact_mod_cast hround

theorem nearest_le_zpow_log_succ (q : ℚ) : nearest q ≤ (2 : ℚ) ^ (Int.log 2 q + 1) := by
  have hhigh : q ≤ (2 : ℚ) ^ (Int.log 2 q + 1) := by
    exact_mod_cast (Int.lt_zpow_succ_log_self (b := 2) one_lt_two q).le
  have hpow := zpow_div_ulp 1 (Int.log 2 q) q rfl
  have hround := roundEven_mono (div_le_div_of_nonneg_right hhigh (ulp_pos q).le)
  simp only [Nat.cast_one] at hpow
  rw [hpow, roundEven_intCast] at hround
  rw [nearest, ← le_div_iff₀ (ulp_pos q), hpow]
  exact_mod_cast hround

/-- Rounding keeps the order. -/
theorem nearest_mono (hp : 0 ≤ p) (h : p ≤ q) : nearest p ≤ nearest q := by
  rcases hp.eq_or_lt with rfl | hp
  · rcases h.eq_or_lt with rfl | hq
    · exact le_refl _
    · rw [nearest_zero]
      exact (zpow_pos two_pos _).le.trans (zpow_log_le_nearest hq)
  rcases (Int.log_mono_right (b := 2) hp h).lt_or_eq with hlt | heq
  · -- a power of two lies in between
    calc nearest p ≤ 2 ^ (Int.log 2 p + 1) := nearest_le_zpow_log_succ p
      _ ≤ 2 ^ Int.log 2 q := zpow_le_zpow_right₀ one_le_two hlt
      _ ≤ nearest q := zpow_log_le_nearest (hp.trans_le h)
  · have hulp : ulp p = ulp q := by rw [ulp, ulp, heq]
    rw [nearest, nearest, hulp]
    refine mul_le_mul_of_nonneg_right ?_ (ulp_pos q).le
    exact_mod_cast roundEven_mono (div_le_div_of_nonneg_right h (ulp_pos q).le)

/-- Integers below `2 ^ 53` are kept. -/
theorem nearest_natCast {n : ℕ} (h : n < 2 ^ 53) : nearest n = n := by
  rcases Nat.eq_zero_or_pos n with rfl | hn
  · simp
  have hlog : Int.log 2 (n : ℚ) = Nat.log 2 n := Int.log_natCast 2 n
  have hle : Nat.log 2 n ≤ 52 := Nat.lt_succ_iff.mp (Nat.log_lt_of_lt_pow hn.ne' h)
  have hquot : (n : ℚ) / ulp n = ((n * 2 ^ (52 - Nat.log 2 n) : ℤ) : ℚ) := by
    rw [ulp, hlog, div_eq_mul_inv, ← zpow_neg, neg_sub]
    push_cast
    rw [← zpow_natCast, Nat.cast_sub hle]
    rfl
  rw [nearest, hquot, roundEven_intCast, ← hquot, div_mul_cancel₀ _ (ulp_pos _).ne']

/-- The relative error. -/
theorem abs_nearest_sub_le (hq : 0 < q) : |nearest q - q| ≤ q / 2 ^ 53 := by
  have hulp := ulp_pos q
  have hround := abs_roundEven_sub_le (q / ulp q)
  have hlow : ulp q * 2 ^ 52 ≤ q := by
    have hself : (2 : ℚ) ^ Int.log 2 q ≤ q := by
      exact_mod_cast Int.zpow_log_le_self (b := 2) one_lt_two hq
    rw [ulp, ← zpow_natCast, ← zpow_add₀ two_ne_zero]
    simpa using hself
  have hdiff : nearest q - q = (roundEven (q / ulp q) - q / ulp q) * ulp q := by
    rw [nearest, sub_mul, div_mul_cancel₀ _ hulp.ne']
  rw [hdiff, abs_mul, abs_of_pos hulp]
  calc |(roundEven (q / ulp q) : ℚ) - q / ulp q| * ulp q ≤ 1 / 2 * ulp q :=
        mul_le_mul_of_nonneg_right hround hulp.le
    _ ≤ q / 2 ^ 53 := by
        rw [le_div_iff₀ (by positivity)]
        linarith

/-- Numbers that are far enough apart stay apart. -/
theorem nearest_lt_nearest (hp : 0 ≤ p) (h : p < q) (hgap : q / 2 ^ 52 < q - p) :
    nearest p < nearest q := by
  have hq : 0 < q := hp.trans_lt h
  have hhigh := (abs_le.mp (abs_nearest_sub_le hq)).1
  rcases hp.eq_or_lt with rfl | hp
  · rw [nearest_zero]
    exact (zpow_pos two_pos _).trans_le (zpow_log_le_nearest hq)
  · have hlow := (abs_le.mp (abs_nearest_sub_le hp)).2
    have hsum : p / 2 ^ 53 + q / 2 ^ 53 < q / 2 ^ 52 := by
      rw [← add_div, div_lt_div_iff₀ (by positivity) (by positivity)]
      linarith
    linarith

/-! ## Quotients -/

/-- The quotient of two integers in double precision. -/
def quotient (a b : ℕ) : ℚ := nearest (nearest a / nearest b)

/-- A quotient of small integers reaches a fraction of small integers in double precision exactly
when it reaches it. -/
theorem nearest_le_quotient_iff {n d a b : ℕ} (hd : 0 < d) (hb : 0 < b) (hn : n ≤ d)
    (ha : a < 2 ^ 53) (hdb : d * b < 2 ^ 52) :
    nearest (n / d) ≤ quotient a b ↔ n * b ≤ d * a := by
  have hb53 : b < 2 ^ 53 := by nlinarith
  have hdq : (0 : ℚ) < d := by exact_mod_cast hd
  have hbq : (0 : ℚ) < b := by exact_mod_cast hb
  have hquot : quotient a b = nearest (a / b) := by
    rw [quotient, nearest_natCast ha, nearest_natCast hb53]
  have hcross : (n : ℚ) / d ≤ a / b ↔ n * b ≤ d * a := by
    rw [div_le_div_iff₀ hdq hbq, mul_comm (a : ℚ)]
    exact_mod_cast Iff.rfl
  rw [hquot]
  constructor
  · contrapose!
    intro hlt
    -- the fractions differ by the inverse of both denominators at least
    have hlt' : (d : ℚ) * a + 1 ≤ n * b := by exact_mod_cast hlt
    have hdiff : 1 / (d * b : ℚ) ≤ n / d - a / b := by
      rw [div_sub_div _ _ hdq.ne' hbq.ne']
      exact div_le_div_of_nonneg_right (by linarith) (by positivity)
    have hpos : (0 : ℚ) < 1 / (d * b) := by positivity
    refine nearest_lt_nearest (by positivity) (by linarith) (lt_of_lt_of_le ?_ hdiff)
    have hle : (n : ℚ) / d ≤ 1 := by
      rw [div_le_one hdq]
      exact_mod_cast hn
    have hsmall : (d * b : ℚ) < 2 ^ 52 := by exact_mod_cast hdb
    calc (n : ℚ) / d / 2 ^ 52 ≤ 1 / 2 ^ 52 := div_le_div_of_nonneg_right hle (by positivity)
      _ < 1 / (d * b) := one_div_lt_one_div_of_lt (by positivity) hsmall
  · intro hle
    exact nearest_mono (by positivity) (hcross.mpr hle)

end Binary64
