import Mathlib
import Gazetteer.Number.Binary64
/-!
The bit patterns of doubles.  A pattern is a sign, an exponent and a fraction, and unless it is that
of a NaN it is the pattern of the double that is made from it.
-/

namespace Gazetteer.Number

open Float.Model
open Float.Model.UnpackedFloat (Sign unpackMantissa unpackExponent unpackSign packComponents)

variable (b : BitVec 64)

/-! Fields -/

theorem toNat_mantissa : (@unpackMantissa Format.binary64 b).toNat = b.toNat % 2 ^ 52 := by
  simp [unpackMantissa, BitVec.extractLsb]

theorem toNat_exponent :
    (@unpackExponent Format.binary64 b).toNat = b.toNat / 2 ^ 52 % 2 ^ 11 := by
  simp [unpackExponent, BitVec.extractLsb, Nat.shiftRight_eq_div_pow]

theorem toNat_sign : (@unpackSign Format.binary64 b).toNat = b.toNat / 2 ^ 63 := by
  have hlt := b.isLt
  simp [unpackSign, BitVec.extractLsb, Nat.shiftRight_eq_div_pow]
  omega

private theorem toBitVec_ofBitVec (s : BitVec 1) : (Sign.ofBitVec s).toBitVec = s := by
  revert s
  decide

theorem toNat_packComponents (s : Sign) (e : BitVec 11) (m : BitVec 52) :
    (packComponents Format.binary64 s e m).toNat =
      s.toBitVec.toNat * 2 ^ 63 + e.toNat * 2 ^ 52 + m.toNat := by
  have hm := m.isLt
  have he := e.isLt
  change ((s.toBitVec ++ e) ++ m).toNat = _
  rw [BitVec.toNat_append, BitVec.toNat_append, ← Nat.shiftLeft_add_eq_or_of_lt hm,
    ← Nat.shiftLeft_add_eq_or_of_lt he, Nat.shiftLeft_eq, Nat.shiftLeft_eq]
  omega

theorem packComponents_eq {b : BitVec 64} {e : BitVec 11} {m : BitVec 52}
    (he : e.toNat = b.toNat / 2 ^ 52 % 2 ^ 11) (hm : m.toNat = b.toNat % 2 ^ 52) :
    packComponents Format.binary64 (Sign.ofBitVec (@unpackSign Format.binary64 b)) e m = b := by
  have hlt := b.isLt
  refine BitVec.eq_of_toNat_eq ?_
  rw [toNat_packComponents, toBitVec_ofBitVec, toNat_sign, he, hm]
  omega

private theorem exponent_eq_iff (field : BitVec 11) :
    @unpackExponent Format.binary64 b = field ↔ b.toNat / 2 ^ 52 % 2 ^ 11 = field.toNat := by
  rw [← toNat_exponent]
  exact BitVec.toNat_inj.symm

private theorem mantissa_eq_zero_iff :
    @unpackMantissa Format.binary64 b = 0#52 ↔ b.toNat % 2 ^ 52 = 0 := by
  rw [← toNat_mantissa]
  exact BitVec.toNat_inj.symm

/-- What a pattern stands for, by its exponent: all bits of it set, none, or some. -/
theorem unpack_eq : UnpackedFloat.unpack Format.binary64 b =
    let s := Sign.ofBitVec (@unpackSign Format.binary64 b)
    if b.toNat / 2 ^ 52 % 2 ^ 11 = 2047 then
      if b.toNat % 2 ^ 52 = 0 then .infinity s else .notANumber
    else if b.toNat / 2 ^ 52 % 2 ^ 11 = 0 then
      if h : b.toNat % 2 ^ 52 = 0 then .zero s
      else .finite s (b.toNat % 2 ^ 52) (-1074) (Nat.pos_of_ne_zero h)
    else .finite s (b.toNat % 2 ^ 52 + 2 ^ 52) ((b.toNat / 2 ^ 52 % 2 ^ 11 : ℕ) - 1075)
      (by omega) := by
  have hones := exponent_eq_iff b (-1#11)
  have hnone := exponent_eq_iff b 0#11
  have hsignificand : (1#1 ++ @unpackMantissa Format.binary64 b).toNat =
      b.toNat % 2 ^ 52 + 2 ^ 52 := by
    rw [BitVec.toNat_append, toNat_mantissa,
      ← Nat.shiftLeft_add_eq_or_of_lt (Nat.mod_lt _ (by decide))]
    simp [Nat.add_comm]
  simp only [UnpackedFloat.unpack]
  refine ite_congr (propext hones) (fun _ => ?_) fun _ =>
    ite_congr (propext hnone) (fun hzero => ?_) fun _ => ?_
  · exact ite_congr (propext (mantissa_eq_zero_iff b)) (fun _ => rfl) fun _ => rfl
  · refine dite_congr (propext (mantissa_eq_zero_iff b)) (fun _ => rfl) fun _ => ?_
    simp only [toNat_mantissa, toNat_exponent, hzero]
    rfl
  · simp only [hsignificand, toNat_exponent]
    rfl

/-! Patterns of numbers -/

theorem pack_subnormal (s : Sign) {m : ℕ} (hm : 0 < m) (h : m < 2 ^ 52) :
    UnpackedFloat.pack Format.binary64 (.finite s m (-1074) hm) =
      packComponents Format.binary64 s 0 (BitVec.ofNat 52 m) := by
  have hlog : m.log2 < 52 := (Nat.log2_lt hm.ne').mpr h
  have hbits : m.log2 + 1 ≠ Format.binary64.mantissaBits := by
    change m.log2 + 1 ≠ 53
    omega
  rw [UnpackedFloat.pack]
  exact (if_neg (by decide)).trans (if_neg hbits)

theorem pack_normal (s : Sign) {m field : ℕ} (hm : 0 < m) (hlow : 2 ^ 52 ≤ m) (hhigh : m < 2 ^ 53)
    (hfield : field < 2047) :
    UnpackedFloat.pack Format.binary64 (.finite s m ((field : ℤ) - 1075) hm) =
      packComponents Format.binary64 s (BitVec.ofNat 11 field) (BitVec.ofNat 52 m) := by
  have hlog : m.log2 = 52 := (Nat.log2_eq_iff hm.ne').mpr ⟨hlow, hhigh⟩
  have hbits : m.log2 + 1 = Format.binary64.mantissaBits := by
    rw [hlog]
    rfl
  have hbiased : ((field : ℤ) - 1075 + Format.binary64.exponentBias +
      Format.binary64.mantissaBitsWithoutImplicit).toNat = field := by
    change ((field : ℤ) - 1075 + (1023 : ℕ) + (52 : ℕ)).toNat = field
    omega
  have hfinite : ¬2 ^ Format.binary64.exponentBits ≤ field + 1 := by
    change ¬2 ^ 11 ≤ field + 1
    omega
  rw [UnpackedFloat.pack]
  simp only [hbiased]
  exact (if_neg hfinite).trans (if_pos hbits)

/-- Neither all bits of the exponent are set, or none of the fraction. -/
def IsNumber (pattern : ℕ) : Prop :=
  pattern / 2 ^ 52 % 2 ^ 11 ≠ 2047 ∨ pattern % 2 ^ 52 = 0

theorem pack_unpack {b : BitVec 64} (h : IsNumber b.toNat) :
    UnpackedFloat.pack Format.binary64 (UnpackedFloat.unpack Format.binary64 b) = b := by
  rw [unpack_eq]
  split
  next hinfinite =>
    have hfraction : b.toNat % 2 ^ 52 = 0 := h.resolve_left (not_not_intro hinfinite)
    rw [if_pos hfraction]
    exact packComponents_eq hinfinite.symm hfraction.symm
  next hfinite =>
    split
    next hzero =>
      split
      next hfraction => exact packComponents_eq hzero.symm hfraction.symm
      next hsome =>
        rw [pack_subnormal _ _ (Nat.mod_lt _ (by decide))]
        refine packComponents_eq hzero.symm ?_
        rw [BitVec.toNat_ofNat, Nat.mod_mod]
    next hsome =>
      rw [pack_normal _ _ (by omega) (by omega) (by omega)]
      refine packComponents_eq ?_ ?_
      · rw [BitVec.toNat_ofNat]
        omega
      · rw [BitVec.toNat_ofNat]
        omega

/-! Doubles -/

theorem eq_of_toBits {x y : Float} (h : x.toBits = y.toBits) : x = y := by
  obtain ⟨⟨a, ha⟩⟩ := x
  obtain ⟨⟨b, hb⟩⟩ := y
  obtain rfl : a = b := h
  rfl

theorem toBits_ofBits {pattern : UInt64} (h : IsNumber pattern.toNat) :
    (Float.ofBits pattern).toBits = pattern :=
  UInt64.toBitVec_inj.mp (pack_unpack (b := pattern.toBitVec) h)

theorem toBits_ofMagnitude (negative : Bool) {bits : ℕ} (h : bits ≤ infinityBits) :
    (ofMagnitude negative bits).toBits.toNat = (if negative then signBit else 0) + bits := by
  have hsign : signBit = 2 ^ 63 := rfl
  have hinfinity : infinityBits = 2047 * 2 ^ 52 := rfl
  have hpattern : (UInt64.ofNat ((if negative then signBit else 0) + bits)).toNat =
      (if negative then signBit else 0) + bits := by
    refine UInt64.toNat_ofNat_of_lt' ?_
    change _ < 2 ^ 64
    split <;> omega
  have hnumber : IsNumber ((if negative then signBit else 0) + bits) := by
    rw [IsNumber]
    split <;> omega
  rw [ofMagnitude, toBits_ofBits (hpattern.symm ▸ hnumber), hpattern]

/-- The significand has at most 53 bits, and fewer only in the last place of all. -/
structure Dyadic.Canonical (d : Dyadic) : Prop where
  significand : d.significand < 2 ^ 53
  lowest : -1074 ≤ d.exponent
  highest : d.exponent ≤ 971
  normal : d.exponent = -1074 ∨ 2 ^ 52 ≤ d.significand

def Dyadic.bits (d : Dyadic) : ℕ :=
  (d.exponent + 1074).toNat * 2 ^ 52 + d.significand

theorem Dyadic.Canonical.bits_lt {d : Dyadic} (h : d.Canonical) : d.bits < infinityBits := by
  obtain ⟨hsignificand, hlowest, hhighest, hnormal⟩ := h
  have hinfinity : infinityBits = 2047 * 2 ^ 52 := rfl
  rw [Dyadic.bits]
  omega

theorem dyadic?_eq_some {x : Float} {d : Dyadic} (h : dyadic? x = some d) :
    d.Canonical ∧ x.toBits.toNat = (if d.negative then signBit else 0) + d.bits := by
  have hsign : signBit = 2 ^ 63 := rfl
  have hinfinity : infinityBits = 2047 * 2 ^ 52 := rfl
  have hlt : x.toBits.toNat < 2 ^ 64 := x.toBits.toNat_lt
  simp only [dyadic?, hsign, hinfinity] at h
  split at h
  · cases h
  next hfinite =>
    split at h
    next hsmall =>
      obtain rfl := Option.some_inj.mp h
      refine ⟨⟨?_, le_rfl, ?_, .inl rfl⟩, ?_⟩
      · change x.toBits.toNat % 2 ^ 63 % 2 ^ 52 < 2 ^ 53
        omega
      · change (-1074 : ℤ) ≤ 971
        omega
      · simp only [Dyadic.bits, decide_eq_true_eq, hsign]
        split <;> omega
    next hlarge =>
      obtain rfl := Option.some_inj.mp h
      refine ⟨⟨?_, ?_, ?_, .inr (Nat.le_add_left _ _)⟩, ?_⟩
      · change x.toBits.toNat % 2 ^ 63 % 2 ^ 52 + 2 ^ 52 < 2 ^ 53
        omega
      · change (-1074 : ℤ) ≤ (x.toBits.toNat % 2 ^ 63 / 2 ^ 52 : ℕ) - 1075
        omega
      · change ((x.toBits.toNat % 2 ^ 63 / 2 ^ 52 : ℕ) : ℤ) - 1075 ≤ 971
        omega
      · simp only [Dyadic.bits, decide_eq_true_eq, hsign]
        split <;> omega

theorem ofMagnitude_bits {x : Float} {d : Dyadic} (h : dyadic? x = some d) :
    ofMagnitude d.negative d.bits = x := by
  obtain ⟨hcanonical, hbits⟩ := dyadic?_eq_some h
  refine eq_of_toBits (UInt64.toNat_inj.mp ?_)
  rw [toBits_ofMagnitude _ hcanonical.bits_lt.le, hbits]

end Gazetteer.Number
