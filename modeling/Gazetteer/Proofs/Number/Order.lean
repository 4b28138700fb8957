import Mathlib
import Gazetteer.Proofs.Number.Pattern
/-!
The order of doubles is that of their exact values: the comparison of two doubles, neither of them
a NaN, is the comparison of the whole numbers that they are multiples by.
-/

namespace Gazetteer.Number

open Float.Model
open Float.Model.UnpackedFloat (Sign unpackMantissa unpackExponent unpackSign)

variable (x : Float)

private def bits : Nat :=
  x.toBits.toNat

private theorem bits_lt : bits x < 2 ^ 64 :=
  x.toBits.toNat_lt

/-- Unpacked doubles whose fields are those of a bit pattern. -/
private def Canonical : UnpackedFloat → Prop
  | .finite _ m e _ => m < 2 ^ 53 ∧ -1074 ≤ e ∧ e ≤ 971 ∧ (e = -1074 ∨ 2 ^ 52 ≤ m)
  | _ => True

private def scaledOf : UnpackedFloat → Int
  | .infinity .positive => 2 ^ 2200
  | .infinity .negative => -(2 ^ 2200)
  | .finite .positive m e _ => m * 2 ^ (e + 1074).toNat
  | .finite .negative m e _ => -(m * 2 ^ (e + 1074).toNat)
  | _ => 0

private theorem compare_magnitudes {m n : Nat} {d e : Int} (hm : m < 2 ^ 53) (hn : n < 2 ^ 53)
    (hd : -1074 ≤ d) (he : -1074 ≤ e) (hdm : d = -1074 ∨ 2 ^ 52 ≤ m)
    (hen : e = -1074 ∨ 2 ^ 52 ≤ n) :
    compare ((m : Int) * 2 ^ (d + 1074).toNat) (n * 2 ^ (e + 1074).toNat) =
      (compare d e).then (compare m n) := by
  -- one place more is more than all digits of the lower place
  have key : ∀ {m n : Nat} {d e : Int}, m < 2 ^ 53 → -1074 ≤ d → d < e → 2 ^ 52 ≤ n →
      (m : Int) * 2 ^ (d + 1074).toNat < n * 2 ^ (e + 1074).toNat := by
    intro m n d e hm hd hlt hn
    have hsplit : (e + 1074).toNat = (d + 1074).toNat + 1 + (e - d - 1).toNat := by omega
    rw [hsplit, pow_add, pow_succ]
    have hpow : (0 : Int) < 2 ^ (d + 1074).toNat := by positivity
    have hone : (1 : Int) ≤ 2 ^ (e - d - 1).toNat := one_le_pow₀ (by norm_num)
    have hmn : (m : Int) < n * 2 := by omega
    calc (m : Int) * 2 ^ (d + 1074).toNat
        < n * 2 * 2 ^ (d + 1074).toNat := by gcongr
      _ = n * (2 ^ (d + 1074).toNat * 2 * 1) := by ring
      _ ≤ n * (2 ^ (d + 1074).toNat * 2 * 2 ^ (e - d - 1).toNat) := by gcongr
  rcases lt_trichotomy d e with hlt | rfl | hlt
  · have hn' : 2 ^ 52 ≤ n := hen.resolve_left (by omega)
    rw [compare_lt_iff_lt.mpr hlt, compare_lt_iff_lt.mpr (key hm hd hlt hn')]
    rfl
  · have hpow : (0 : Int) < 2 ^ (d + 1074).toNat := by positivity
    rw [compare_eq_iff_eq.mpr rfl]
    rcases lt_trichotomy m n with h | rfl | h
    · rw [compare_lt_iff_lt.mpr h]
      exact compare_lt_iff_lt.mpr (by gcongr)
    · simp
    · rw [compare_gt_iff_gt.mpr h]
      exact compare_gt_iff_gt.mpr (show _ > _ by gcongr)
  · have hm' : 2 ^ 52 ≤ m := hdm.resolve_left (by omega)
    rw [compare_gt_iff_gt.mpr hlt, compare_gt_iff_gt.mpr (key hn he hlt hm')]
    rfl

private theorem scaledOf_pos {m : Nat} {e : Int} {h : 0 < m} :
    0 < scaledOf (.finite .positive m e h) :=
  Int.mul_pos (by exact_mod_cast h) (by positivity)

private theorem scaledOf_neg {m : Nat} {e : Int} {h : 0 < m} :
    scaledOf (.finite .negative m e h) < 0 :=
  Int.neg_neg_of_pos (scaledOf_pos (h := h))

private theorem compare_neg (a b : Int) : compare (-a) (-b) = (compare a b).swap := by
  rcases lt_trichotomy a b with h | rfl | h
  · rw [compare_lt_iff_lt.mpr h, compare_gt_iff_gt.mpr (Int.neg_lt_neg h)]
    rfl
  · simp
  · rw [compare_gt_iff_gt.mpr h, compare_lt_iff_lt.mpr (Int.neg_lt_neg h)]
    rfl

private theorem magnitude_lt {m : Nat} {e : Int} (hm : m < 2 ^ 53) (he : e ≤ 971) :
    (m : Int) * 2 ^ (e + 1074).toNat < 2 ^ 2200 := by
  have hm' : (m : Int) < 2 ^ 53 := by exact_mod_cast hm
  have hpow : (2 : Int) ^ (e + 1074).toNat ≤ 2 ^ 2045 :=
    pow_le_pow_right₀ (by norm_num) (by omega)
  calc (m : Int) * 2 ^ (e + 1074).toNat
      < 2 ^ 53 * 2 ^ (e + 1074).toNat := by gcongr
    _ ≤ 2 ^ 53 * 2 ^ 2045 := by gcongr
    _ ≤ 2 ^ 2200 := by rw [← pow_add]; exact pow_le_pow_right₀ (by norm_num) (by norm_num)

private theorem scaledOf_lt_infinity {u : UnpackedFloat} (hu : Canonical u)
    (hpos : ∀ s, u ≠ .infinity s) : -(2 ^ 2200) < scaledOf u ∧ scaledOf u < 2 ^ 2200 := by
  have hbig : (0 : Int) < 2 ^ 2200 := by positivity
  cases u with
  | infinity s => exact absurd rfl (hpos s)
  | notANumber => exact ⟨Int.neg_neg_of_pos hbig, hbig⟩
  | zero s => exact ⟨Int.neg_neg_of_pos hbig, hbig⟩
  | finite s m e h =>
      obtain ⟨hm, -, he, -⟩ := hu
      have hlt := magnitude_lt hm he
      cases s with
      | positive => exact ⟨(Int.neg_neg_of_pos hbig).trans scaledOf_pos, hlt⟩
      | negative => exact ⟨Int.neg_lt_neg hlt, scaledOf_neg.trans hbig⟩

private theorem compare_positive {m n : Nat} {d e : Int} (hm : 0 < m) (hn : 0 < n)
    (hu : Canonical (.finite .positive m d hm)) (hv : Canonical (.finite .positive n e hn)) :
    (UnpackedFloat.finite .positive m d hm).compare (.finite .positive n e hn) =
      some (compare (scaledOf (.finite .positive m d hm))
        (scaledOf (.finite .positive n e hn))) := by
  obtain ⟨hm', hd, -, hdm⟩ := hu
  obtain ⟨hn', he, -, hen⟩ := hv
  exact congrArg some (compare_magnitudes hm' hn' hd he hdm hen).symm

private theorem compare_negative {m n : Nat} {d e : Int} (hm : 0 < m) (hn : 0 < n)
    (hu : Canonical (.finite .negative m d hm)) (hv : Canonical (.finite .negative n e hn)) :
    (UnpackedFloat.finite .negative m d hm).compare (.finite .negative n e hn) =
      some (compare (scaledOf (.finite .negative m d hm))
        (scaledOf (.finite .negative n e hn))) := by
  have hpositive := Option.some.inj (compare_positive hm hn hu hv)
  change some ((compare d e).then (compare m n)).swap = some (compare (-_) (-_))
  rw [compare_neg]
  exact congrArg (fun order => some order.swap) hpositive

/-- Unpacked doubles compare as the whole numbers that they stand for. -/
private theorem compare_unpacked {u v : UnpackedFloat} (hu : Canonical u) (hv : Canonical v)
    (hun : u ≠ .notANumber) (hvn : v ≠ .notANumber) :
    u.compare v = some (compare (scaledOf u) (scaledOf v)) := by
  have hbig : (0 : Int) < 2 ^ 2200 := by positivity
  have lt {a b : Int} (h : a < b) : some Ordering.lt = some (compare a b) :=
    congrArg some (compare_lt_iff_lt.mpr h).symm
  have gt {a b : Int} (h : b < a) : some Ordering.gt = some (compare a b) :=
    congrArg some (compare_gt_iff_gt.mpr h).symm
  cases u with
  | notANumber => exact absurd rfl hun
  | infinity s =>
      cases v with
      | notANumber => exact absurd rfl hvn
      | infinity t =>
          cases s <;> cases t
          · exact congrArg some (compare_eq_iff_eq.mpr rfl).symm
          · exact lt ((Int.neg_neg_of_pos hbig).trans hbig)
          · exact gt ((Int.neg_neg_of_pos hbig).trans hbig)
          · exact congrArg some (compare_eq_iff_eq.mpr rfl).symm
      | zero t =>
          cases s
          · exact lt (scaledOf_lt_infinity hv (by simp)).1
          · exact gt (scaledOf_lt_infinity hv (by simp)).2
      | finite t n e h =>
          cases s
          · exact lt (scaledOf_lt_infinity hv (by simp)).1
          · exact gt (scaledOf_lt_infinity hv (by simp)).2
  | zero s =>
      cases v with
      | notANumber => exact absurd rfl hvn
      | infinity t =>
          cases t
          · exact gt (scaledOf_lt_infinity hu (by simp)).1
          · exact lt (scaledOf_lt_infinity hu (by simp)).2
      | zero t => rfl
      | finite t n e h =>
          cases t
          · exact gt scaledOf_neg
          · exact lt scaledOf_pos
  | finite s m d hm =>
      cases v with
      | notANumber => exact absurd rfl hvn
      | infinity t =>
          cases t
          · cases s <;> exact gt (scaledOf_lt_infinity hu (by simp)).1
          · cases s <;> exact lt (scaledOf_lt_infinity hu (by simp)).2
      | zero t =>
          cases s
          · exact lt scaledOf_neg
          · exact gt scaledOf_pos
      | finite t n e hn =>
          cases s <;> cases t
          · exact compare_negative hm hn hu hv
          · exact lt (scaledOf_neg.trans scaledOf_pos)
          · exact gt (scaledOf_neg.trans scaledOf_pos)
          · exact compare_positive hm hn hu hv

private def sign : Sign :=
  if bits x < 2 ^ 63 then .positive else .negative

private theorem sign_eq :
    Sign.ofBitVec (@unpackSign Format.binary64 x.toModel.toBits.toBitVec) = sign x := by
  have hs : (@unpackSign Format.binary64 x.toModel.toBits.toBitVec).toNat = bits x / 2 ^ 63 :=
    toNat_sign _
  have hzero : @unpackSign Format.binary64 x.toModel.toBits.toBitVec = 0#1 ↔
      bits x < 2 ^ 63 := by
    rw [← BitVec.toNat_inj, hs, BitVec.toNat_zero]
    omega
  unfold Sign.ofBitVec sign
  simp only [hzero]

private theorem dyadic?_eq : dyadic? x =
    if bits x / 2 ^ 52 % 2 ^ 11 = 2047 then none
    else if bits x / 2 ^ 52 % 2 ^ 11 = 0 then
      some ⟨!decide (bits x < 2 ^ 63), bits x % 2 ^ 52, -1074⟩
    else some ⟨!decide (bits x < 2 ^ 63), bits x % 2 ^ 52 + 2 ^ 52,
      (bits x / 2 ^ 52 % 2 ^ 11 : Nat) - 1075⟩ := by
  have hlt := bits_lt x
  have hbits : x.toBits.toNat = bits x := rfl
  have hfield : bits x % 2 ^ 63 / 2 ^ 52 = bits x / 2 ^ 52 % 2 ^ 11 := by omega
  have hfraction : bits x % 2 ^ 63 % 2 ^ 52 = bits x % 2 ^ 52 := by omega
  have hnegative : decide (2 ^ 63 ≤ bits x) = !decide (bits x < 2 ^ 63) := by
    rw [← decide_not, decide_eq_decide, not_lt]
  have hinfinite : 2047 * 2 ^ 52 ≤ bits x % 2 ^ 63 ↔ bits x / 2 ^ 52 % 2 ^ 11 = 2047 := by omega
  simp only [dyadic?, hbits, signBit, infinityBits, ge_iff_le, hfield, hfraction, hnegative,
    hinfinite]

private theorem scaled_eq : scaled x =
    if bits x / 2 ^ 52 % 2 ^ 11 = 2047 then
      if bits x < 2 ^ 63 then 2 ^ 2200 else -(2 ^ 2200)
    else
      let exponent := bits x / 2 ^ 52 % 2 ^ 11
      let size : Int :=
        if exponent = 0 then (bits x % 2 ^ 52 : Nat)
        else (bits x % 2 ^ 52 + 2 ^ 52 : Nat) * 2 ^ (exponent - 1)
      if bits x < 2 ^ 63 then size else -size := by
  have hbits : x.toBits.toNat = bits x := rfl
  unfold scaled
  rw [dyadic?_eq, hbits]
  generalize bits x / 2 ^ 52 % 2 ^ 11 = field
  generalize bits x % 2 ^ 52 = fraction
  by_cases hinfinite : field = 2047
  · rw [if_pos hinfinite, if_pos hinfinite]
    by_cases hsign : bits x < 2 ^ 63
    · exact (if_neg (Nat.not_le.mpr hsign)).trans (if_pos hsign).symm
    · exact (if_pos (Nat.not_lt.mp hsign)).trans (if_neg hsign).symm
  · rw [if_neg hinfinite, if_neg hinfinite]
    generalize 2 ^ 63 = half
    by_cases hzero : field = 0
    · by_cases hsign : bits x < half <;> simp [hzero, hsign]
    · have hplace : ((field : Int) - 1075 + 1074).toNat = field - 1 := by omega
      by_cases hsign : bits x < half <;> simp [hzero, hsign, hplace]

private theorem unpack_double : x.toModel.unpack =
    if bits x / 2 ^ 52 % 2 ^ 11 = 2047 then
      if bits x % 2 ^ 52 = 0 then .infinity (sign x) else .notANumber
    else if bits x / 2 ^ 52 % 2 ^ 11 = 0 then
      if h : bits x % 2 ^ 52 = 0 then .zero (sign x)
      else .finite (sign x) (bits x % 2 ^ 52) (-1074) (Nat.pos_of_ne_zero h)
    else .finite (sign x) (bits x % 2 ^ 52 + 2 ^ 52) ((bits x / 2 ^ 52 % 2 ^ 11 : Nat) - 1075)
      (by omega) := by
  rw [← sign_eq]
  exact unpack_eq x.toBits.toBitVec

private theorem unpack_spec :
    Canonical x.toModel.unpack ∧
      (x.isNaN = false → scaledOf x.toModel.unpack = scaled x) := by
  have hnan : x.isNaN = x.toModel.unpack.isNaN := rfl
  rw [hnan, scaled_eq, unpack_double, sign]
  split
  next hinfinite =>
    split
    · refine ⟨trivial, fun _ => ?_⟩
      split <;> rfl
    · exact ⟨trivial, fun h => nomatch h⟩
  next hfinite =>
    split
    next hzero =>
      simp only
      split
      next hfraction =>
        refine ⟨trivial, fun _ => ?_⟩
        rw [hfraction]
        split <;> rfl
      next hsome =>
        refine ⟨⟨by omega, le_rfl, by norm_num, Or.inl rfl⟩, fun _ => ?_⟩
        split <;> simp [scaledOf]
    next hsome =>
      have hplace : ((bits x / 2 ^ 52 % 2 ^ 11 : Nat) - 1075 + 1074 : Int).toNat =
          bits x / 2 ^ 52 % 2 ^ 11 - 1 := by omega
      simp only
      refine ⟨⟨by omega, by omega, by omega, Or.inr (by omega)⟩, fun _ => ?_⟩
      split <;> simp only [scaledOf, hplace]

private theorem unpack_ne_notANumber {x : Float} (h : x.isNaN = false) :
    x.toModel.unpack ≠ .notANumber := by
  intro hunpack
  have : x.toModel.unpack.isNaN = false := h
  rw [hunpack] at this
  exact absurd this (by decide)

private theorem compare_scaled {x y : Float} (hx : x.isNaN = false) (hy : y.isNaN = false) :
    x.toModel.unpack.compare y.toModel.unpack = some (compare (scaled x) (scaled y)) := by
  rw [compare_unpacked (unpack_spec x).1 (unpack_spec y).1 (unpack_ne_notANumber hx)
    (unpack_ne_notANumber hy), (unpack_spec x).2 hx, (unpack_spec y).2 hy]

theorem le_iff_scaled {x y : Float} (hx : x.isNaN = false) (hy : y.isNaN = false) :
    x ≤ y ↔ scaled x ≤ scaled y := by
  change decide ((x.toModel.unpack.compare y.toModel.unpack).any (·.isLE) = true) = true ↔ _
  rw [compare_scaled hx hy, decide_eq_true_iff, Option.any_some, Std.isLE_compare]

theorem lt_iff_scaled {x y : Float} (hx : x.isNaN = false) (hy : y.isNaN = false) :
    x < y ↔ scaled x < scaled y := by
  change decide (x.toModel.unpack.compare y.toModel.unpack == some .lt) = true ↔ _
  rw [compare_scaled hx hy]
  simp [compare_lt_iff_lt]

theorem beq_iff_scaled {x y : Float} (hx : x.isNaN = false) (hy : y.isNaN = false) :
    (x == y) = true ↔ scaled x = scaled y := by
  change (x.toModel.unpack.compare y.toModel.unpack == some .eq) = true ↔ _
  rw [compare_scaled hx hy]
  simp

theorem not_le_of_isNaN {x y : Float} (h : x.isNaN = true ∨ y.isNaN = true) : ¬x ≤ y := by
  have hunpack (z : Float) (hz : z.isNaN = true) : z.toModel.unpack = .notANumber := by
    have : z.toModel.unpack.isNaN = true := hz
    revert this
    cases z.toModel.unpack <;> simp [UnpackedFloat.isNaN]
  change ¬decide ((x.toModel.unpack.compare y.toModel.unpack).any (·.isLE) = true) = true
  rcases h with h | h
  · rw [hunpack x h]
    simp [UnpackedFloat.compare]
  · rw [hunpack y h]
    cases x.toModel.unpack <;> simp [UnpackedFloat.compare]

theorem isNaN_of_isFinite {x : Float} (h : isFinite x = true) : x.isNaN = false := by
  have hfinite : bits x / 2 ^ 52 % 2 ^ 11 ≠ 2047 := by
    intro hinfinite
    rw [isFinite, dyadic?_eq, if_pos hinfinite] at h
    exact absurd h (by decide)
  change x.toModel.unpack.isNaN = false
  rw [unpack_double, if_neg hfinite]
  split
  · split <;> rfl
  · rfl

end Gazetteer.Number
