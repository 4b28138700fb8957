import Mathlib
import Gazetteer.Number.Numeral
/-!
The double nearest to a rational number.  The double nearest to a quotient depends on the value of
the quotient only, so that numerals of one value are read as one double.
-/

namespace Gazetteer.Number

/-! Powers -/

theorem zpow_of_nonneg (b : ℚ) {e : ℤ} (h : 0 ≤ e) : b ^ e = b ^ e.toNat := by
  rw [← zpow_natCast, Int.toNat_of_nonneg h]

theorem zpow_of_neg (b : ℚ) {e : ℤ} (h : ¬0 ≤ e) : b ^ e = (b ^ (-e).toNat)⁻¹ := by
  rw [← zpow_natCast, Int.toNat_of_nonneg (by omega), ← zpow_neg, neg_neg]

/-! Rounding -/

/-- The whole number nearest to a rational that is not negative, a half to the even neighbour. -/
def roundEven (q : ℚ) : ℕ :=
  if 2 * (q - ⌊q⌋₊) < 1 then ⌊q⌋₊
  else if 1 < 2 * (q - ⌊q⌋₊) then ⌊q⌋₊ + 1
  else ⌊q⌋₊ + ⌊q⌋₊ % 2

theorem roundEven_natCast (n : ℕ) : roundEven n = n := by
  simp [roundEven]

theorem roundHalfEven_eq (num : ℕ) {den : ℕ} (hden : 0 < den) :
    roundHalfEven num den = roundEven (num / den) := by
  have hpos : (0 : ℚ) < den := by exact_mod_cast hden
  have hfloor : ⌊(num / den : ℚ)⌋₊ = num / den := Nat.floor_div_eq_div num den
  have hrest : 2 * ((num / den : ℚ) - (num / den : ℕ)) = (2 * (num % den) : ℕ) / (den : ℚ) := by
    have hsplit : (den : ℚ) * (num / den : ℕ) + (num % den : ℕ) = num := by
      exact_mod_cast Nat.div_add_mod num den
    rw [← hsplit]
    push_cast
    field_simp
    ring
  simp only [roundEven, hfloor, hrest, div_lt_one hpos, one_lt_div hpos, Nat.cast_lt]
  rfl

theorem unscale_pos {num den : ℕ} (hden : 0 < den) (e : ℤ) : 0 < (unscale num den e).2 := by
  rw [unscale]
  split
  · exact Nat.mul_pos hden (Nat.pow_pos (by decide))
  · exact hden

theorem unscale_value (num den : ℕ) (e : ℤ) :
    ((unscale num den e).1 : ℚ) / (unscale num den e).2 = num / den / 2 ^ e := by
  rw [unscale]
  split
  next hup =>
    rw [zpow_of_nonneg 2 hup]
    push_cast
    rw [div_div]
  next hdown =>
    rw [zpow_of_neg 2 hdown]
    push_cast
    rw [div_inv_eq_mul, mul_div_right_comm]

def place (q : ℚ) : ℤ :=
  max (Int.log 2 q - 52) (-1074)

/-- The bits of the magnitude of the double nearest to a rational that is not negative. -/
def nearestBits (q : ℚ) : ℕ :=
  if q = 0 then 0
  else min ((place q + 1074).toNat * 2 ^ 52 + roundEven (q / 2 ^ place q)) infinityBits

def nearest (negative : Bool) (q : ℚ) : Float :=
  ofMagnitude negative (nearestBits q)

private theorem two_zpow_pos (e : ℤ) : (0 : ℚ) < 2 ^ e :=
  zpow_pos two_pos e

private theorem log2_bounds {n : ℕ} (h : 0 < n) :
    (2 : ℚ) ^ (n.log2 : ℤ) ≤ n ∧ (n : ℚ) < 2 ^ ((n.log2 : ℤ) + 1) := by
  constructor
  · rw [zpow_natCast]
    exact_mod_cast Nat.log2_self_le h.ne'
  · have hsucc : ((n.log2 : ℤ) + 1) = (n.log2 + 1 : ℕ) := rfl
    rw [hsucc, zpow_natCast]
    exact_mod_cast Nat.lt_log2_self

private theorem ratio_bounds {num den : ℕ} (hnum : 0 < num) (hden : 0 < den) :
    (2 : ℚ) ^ ((num.log2 : ℤ) - den.log2 - 1) < num / den ∧
      (num / den : ℚ) < 2 ^ ((num.log2 : ℤ) - den.log2 + 1) := by
  obtain ⟨hnumLow, hnumHigh⟩ := log2_bounds hnum
  obtain ⟨hdenLow, hdenHigh⟩ := log2_bounds hden
  have hdenPos : (0 : ℚ) < den := by exact_mod_cast hden
  constructor
  · rw [lt_div_iff₀ hdenPos]
    calc (2 : ℚ) ^ ((num.log2 : ℤ) - den.log2 - 1) * den
        < 2 ^ ((num.log2 : ℤ) - den.log2 - 1) * 2 ^ ((den.log2 : ℤ) + 1) :=
          mul_lt_mul_of_pos_left hdenHigh (two_zpow_pos _)
      _ = 2 ^ (num.log2 : ℤ) := by
          rw [← zpow_add₀ two_ne_zero]
          congr 1
          ring
      _ ≤ num := hnumLow
  · rw [div_lt_iff₀ hdenPos]
    calc (num : ℚ) < 2 ^ ((num.log2 : ℤ) + 1) := hnumHigh
      _ = 2 ^ ((num.log2 : ℤ) - den.log2 + 1) * 2 ^ (den.log2 : ℤ) := by
          rw [← zpow_add₀ two_ne_zero]
          congr 1
          ring
      _ ≤ 2 ^ ((num.log2 : ℤ) - den.log2 + 1) * den :=
          mul_le_mul_of_nonneg_left hdenLow (two_zpow_pos _).le

theorem lastPlace_eq {num den : ℕ} (hnum : 0 < num) (hden : 0 < den) :
    lastPlace num den = place (num / den) := by
  obtain ⟨hlow, hhigh⟩ := ratio_bounds hnum hden
  have hq : (0 : ℚ) < num / den := (two_zpow_pos _).trans hlow
  -- So its logarithm is one of two numbers, and one division tells which.
  have hatLeast : (num.log2 : ℤ) - den.log2 - 1 ≤ Int.log 2 (num / den : ℚ) :=
    (Int.zpow_le_iff_le_log one_lt_two hq).mp (by exact_mod_cast hlow.le)
  have hatMost : Int.log 2 (num / den : ℚ) < (num.log2 : ℤ) - den.log2 + 1 :=
    (Int.lt_zpow_iff_log_lt one_lt_two hq).mp (by exact_mod_cast hhigh)
  have htest (e : ℤ) : (unscale num den e).1 / (unscale num den e).2 < 2 ^ 53 ↔
      Int.log 2 (num / den : ℚ) < e + 53 := by
    have hpos : (0 : ℚ) < (unscale num den e).2 := by exact_mod_cast unscale_pos hden e
    have hpow : ((2 ^ 53 : ℕ) : ℚ) * 2 ^ e = (2 : ℕ) ^ (e + 53) := by
      push_cast
      rw [zpow_add₀ two_ne_zero, mul_comm]
      norm_num
    rw [Nat.div_lt_iff_lt_mul (unscale_pos hden e), ← Int.lt_zpow_iff_log_lt one_lt_two hq,
      ← @Nat.cast_lt ℚ, Nat.cast_mul, ← div_lt_iff₀ hpos, unscale_value,
      div_lt_iff₀ (two_zpow_pos e), hpow]
  simp only [lastPlace, htest, place]
  split <;> omega

theorem ofRatio_eq (negative : Bool) (num : ℕ) {den : ℕ} (hden : 0 < den) :
    ofRatio negative num den = nearest negative (num / den) := by
  rw [ofRatio, nearest, nearestBits]
  rcases Nat.eq_zero_or_pos num with rfl | hnum
  · simp
  · have hq : (num / den : ℚ) ≠ 0 := by positivity
    rw [if_neg hnum.ne', if_neg hq]
    simp only [lastPlace_eq hnum hden, roundHalfEven_eq _ (unscale_pos hden _), unscale_value]

/-! The ends of the range -/

theorem floor_le_roundEven (q : ℚ) : ⌊q⌋₊ ≤ roundEven q := by
  rw [roundEven]
  split
  · exact le_rfl
  · split <;> exact Nat.le_add_right _ _

/-- Above the smallest normal number the significand has all its places. -/
private theorem significand_bounds {q : ℚ} (hq : 0 < q) (h : -1022 ≤ Int.log 2 q) :
    (2 : ℚ) ^ 52 ≤ q / 2 ^ place q ∧ q / 2 ^ place q < 2 ^ 53 := by
  have hplace : place q = Int.log 2 q - 52 := max_eq_left (by omega)
  have hlow : (2 : ℚ) ^ Int.log 2 q ≤ q := by exact_mod_cast Int.zpow_log_le_self one_lt_two hq
  have hhigh : q < (2 : ℚ) ^ (Int.log 2 q + 1) := by
    exact_mod_cast Int.lt_zpow_succ_log_self one_lt_two q
  have hpow (n : ℕ) : (2 : ℚ) ^ n * 2 ^ (Int.log 2 q - 52) = 2 ^ (Int.log 2 q - 52 + n) := by
    rw [zpow_add₀ two_ne_zero, zpow_natCast, mul_comm]
  rw [hplace, le_div_iff₀ (two_zpow_pos _), div_lt_iff₀ (two_zpow_pos _), hpow, hpow]
  have h52 : Int.log 2 q - 52 + (52 : ℕ) = Int.log 2 q := by push_cast; ring
  have h53 : Int.log 2 q - 52 + (53 : ℕ) = Int.log 2 q + 1 := by push_cast; ring
  rw [h52, h53]
  exact ⟨hlow, hhigh⟩

theorem nearestBits_of_large {q : ℚ} (h : (2 : ℚ) ^ (1024 : ℤ) ≤ q) :
    nearestBits q = infinityBits := by
  have hq : 0 < q := (two_zpow_pos _).trans_le h
  have hlog : 1024 ≤ Int.log 2 q :=
    (Int.zpow_le_iff_le_log one_lt_two hq).mp (by rwa [Nat.cast_two])
  have hplace : place q = Int.log 2 q - 52 := max_eq_left (by omega)
  have hround : 2 ^ 52 ≤ roundEven (q / 2 ^ place q) :=
    (Nat.le_floor (by exact_mod_cast (significand_bounds hq (by omega)).1)).trans
      (floor_le_roundEven _)
  rw [nearestBits, if_neg hq.ne']
  refine min_eq_right ?_
  have hbits : infinityBits = 2046 * 2 ^ 52 + 2 ^ 52 := by decide
  rw [hbits]
  exact add_le_add (Nat.mul_le_mul_right _ (by omega)) hround

theorem nearestBits_of_small {q : ℚ} (hq : 0 < q) (h : q < (2 : ℚ) ^ (-1075 : ℤ)) :
    nearestBits q = 0 := by
  have hlog : Int.log 2 q < -1075 :=
    (Int.lt_zpow_iff_log_lt one_lt_two hq).mp (by rwa [Nat.cast_two])
  have hplace : place q = -1074 := max_eq_right (by omega)
  have hhalf : 2 * (q / 2 ^ (-1074 : ℤ)) < 1 := by
    have hpow : (2 : ℚ) ^ (-1074 : ℤ) = 2 * 2 ^ (-1075 : ℤ) := by
      rw [← zpow_one_add₀ two_ne_zero]
      rfl
    rw [← mul_div_assoc, div_lt_one (two_zpow_pos _), hpow]
    linarith
  have hfloor : ⌊q / 2 ^ (-1074 : ℤ)⌋₊ = 0 := by
    rw [Nat.floor_eq_zero]
    linarith
  have hround : roundEven (q / 2 ^ (-1074 : ℤ)) = 0 := by
    rw [roundEven, hfloor, if_pos (by simpa using hhalf)]
  rw [nearestBits, if_neg hq.ne', hplace, hround]
  rfl

/-! Numerals -/

def Numeral.value (n : Numeral) : ℚ :=
  n.digits * 10 ^ n.exponent

theorem decimalLength_le_iff {n k : ℕ} (hk : 0 < k) : decimalLength n ≤ k ↔ n < 10 ^ k :=
  Nat.length_toDigits_le_iff (by decide) hk

private theorem decimalLength_bounds {n : ℕ} (h : 0 < n) :
    10 ^ (decimalLength n - 1) ≤ n ∧ n < 10 ^ decimalLength n := by
  have hpos : 0 < decimalLength n := Nat.length_toDigits_pos
  refine ⟨?_, (decimalLength_le_iff hpos).mp le_rfl⟩
  rcases Nat.eq_zero_or_pos (decimalLength n - 1) with hone | hmore
  · rw [hone]
    exact h
  · exact not_lt.mp fun hlt => absurd ((decimalLength_le_iff hmore).mpr hlt) (by omega)

private theorem ten_zpow_pos (e : ℤ) : (0 : ℚ) < 10 ^ e :=
  zpow_pos (by norm_num) e

theorem Numeral.value_bounds {n : Numeral} (h : 0 < n.digits) :
    (10 : ℚ) ^ (n.exponent + decimalLength n.digits - 1) ≤ n.value ∧
      n.value < 10 ^ (n.exponent + decimalLength n.digits) := by
  obtain ⟨hlow, hhigh⟩ := decimalLength_bounds h
  have hpos : 0 < decimalLength n.digits := Nat.length_toDigits_pos
  have hpow (k : ℕ) : (10 : ℚ) ^ (n.exponent + k) = (10 ^ k : ℕ) * 10 ^ n.exponent := by
    rw [zpow_add₀ (by norm_num), zpow_natCast, mul_comm]
    push_cast
    rfl
  have hsub : n.exponent + decimalLength n.digits - 1 =
      n.exponent + (decimalLength n.digits - 1 : ℕ) := by omega
  rw [hsub, hpow, hpow, value]
  exact ⟨mul_le_mul_of_nonneg_right (by exact_mod_cast hlow) (ten_zpow_pos _).le,
    mul_lt_mul_of_pos_right (by exact_mod_cast hhigh) (ten_zpow_pos _)⟩

private theorem two_zpow_lt_ten_zpow {e : ℤ} (h : 0 < e) : (2 : ℚ) ^ (3 * e) < 10 ^ e := by
  rw [zpow_mul]
  exact zpow_lt_zpow_left₀ h (by norm_num) (by norm_num)

private theorem large_of_value {q : ℚ} {e : ℤ} (he : 400 ≤ e) (h : 10 ^ e ≤ q) :
    (2 : ℚ) ^ (1024 : ℤ) ≤ q :=
  calc (2 : ℚ) ^ (1024 : ℤ) ≤ 2 ^ (3 * e) := zpow_le_zpow_right₀ one_le_two (by omega)
    _ ≤ 10 ^ e := (two_zpow_lt_ten_zpow (by omega)).le
    _ ≤ q := h

private theorem small_of_value {q : ℚ} {e : ℤ} (he : e ≤ -400) (h : q < 10 ^ e) :
    q < (2 : ℚ) ^ (-1075 : ℤ) :=
  calc q < 10 ^ e := h
    _ = (10 ^ (-e))⁻¹ := by rw [zpow_neg, inv_inv]
    _ ≤ (2 ^ (3 * -e))⁻¹ := inv_anti₀ (two_zpow_pos _) (two_zpow_lt_ten_zpow (by omega)).le
    _ = 2 ^ (3 * e) := by rw [← zpow_neg, mul_neg, neg_neg]
    _ ≤ 2 ^ (-1075 : ℤ) := zpow_le_zpow_right₀ one_le_two (by omega)

/-- A numeral is read as the double nearest to its value, also where its size alone decides. -/
theorem Numeral.toFloat_eq (n : Numeral) : n.toFloat = nearest n.negative n.value := by
  rw [toFloat]
  rcases Nat.eq_zero_or_pos n.digits with hzero | hpos
  · rw [if_pos hzero, nearest, value, hzero, Nat.cast_zero, zero_mul, nearestBits, if_pos rfl]
  · obtain ⟨hlow, hhigh⟩ := value_bounds hpos
    have hvalue : 0 < n.value := (ten_zpow_pos _).trans_le hlow
    rw [if_neg hpos.ne']
    split
    next hlarge => rw [nearest, nearestBits_of_large (large_of_value (by omega) hlow)]
    next =>
      split
      next hsmall => rw [nearest, nearestBits_of_small hvalue (small_of_value (by omega) hhigh)]
      next =>
        split
        next hup =>
          rw [ofRatio_eq _ _ one_pos, value, zpow_of_nonneg 10 hup, Nat.cast_one, div_one]
          push_cast
          rfl
        next hdown =>
          rw [ofRatio_eq _ _ (Nat.pow_pos (by decide)), value, zpow_of_neg 10 hdown,
            ← div_eq_mul_inv]
          push_cast
          rfl

end Gazetteer.Number
