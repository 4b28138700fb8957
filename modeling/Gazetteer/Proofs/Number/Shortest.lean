import Mathlib
import Gazetteer.Number.Shortest
import Gazetteer.Proofs.Number.Literal
import Gazetteer.Proofs.Number.Nearest
import Gazetteer.Proofs.Number.Pattern
/-!
The text of a finite double is a numeral, and by every layout the double itself is the one nearest
to the numeral, up to the sign of zero.
-/

namespace Gazetteer.Number

open Float.Model

/-! Doubles next to themselves -/

def Dyadic.value (d : Dyadic) : ℚ :=
  d.significand * 2 ^ d.exponent

private theorem Dyadic.Canonical.place_value {d : Dyadic} (h : d.Canonical)
    (hpos : 0 < d.significand) : place d.value = d.exponent := by
  have hpow : (0 : ℚ) < 2 ^ d.exponent := zpow_pos two_pos _
  have hvalue : 0 < d.value := mul_pos (by exact_mod_cast hpos) hpow
  have hhigh : d.value < ((2 : ℕ) : ℚ) ^ (53 + d.exponent) := by
    rw [Nat.cast_ofNat, zpow_add₀ two_ne_zero]
    exact mul_lt_mul_of_pos_right (by exact_mod_cast h.significand) hpow
  have hlogHigh : Int.log 2 d.value < 53 + d.exponent :=
    (Int.lt_zpow_iff_log_lt one_lt_two hvalue).mp hhigh
  rw [place]
  rcases h.normal with hlowest | hnormal
  · rw [hlowest] at hlogHigh ⊢
    exact max_eq_right (by omega)
  · have hlow : ((2 : ℕ) : ℚ) ^ (52 + d.exponent) ≤ d.value := by
      rw [Nat.cast_ofNat, zpow_add₀ two_ne_zero]
      exact mul_le_mul_of_nonneg_right (by exact_mod_cast hnormal) hpow.le
    have hlogLow : 52 + d.exponent ≤ Int.log 2 d.value :=
      (Int.zpow_le_iff_le_log one_lt_two hvalue).mp hlow
    have hlowest := h.lowest
    omega

theorem Dyadic.Canonical.nearestBits_value {d : Dyadic} (h : d.Canonical) :
    nearestBits d.value = d.bits := by
  have hpow : (2 : ℚ) ^ d.exponent ≠ 0 := zpow_ne_zero _ two_ne_zero
  rcases Nat.eq_zero_or_pos d.significand with hzero | hpos
  · have hlowest : d.exponent = -1074 := h.normal.resolve_right (by omega)
    rw [Dyadic.value, Dyadic.bits, hzero, hlowest, Nat.cast_zero, zero_mul, nearestBits, if_pos rfl]
    rfl
  · have hvalue : d.value ≠ 0 := mul_ne_zero (by exact_mod_cast hpos.ne') hpow
    rw [nearestBits, if_neg hvalue, h.place_value hpos, Dyadic.value, mul_div_cancel_right₀ _ hpow,
      roundEven_natCast]
    exact min_eq_left h.bits_lt.le

theorem nearest_value {x : Float} {d : Dyadic} (h : dyadic? x = some d) :
    nearest d.negative d.value = x := by
  rw [nearest, (dyadic?_eq_some h).1.nearestBits_value, ofMagnitude_bits h]

/-! Equal magnitudes -/

/-- Numbers that compare as equal are one number, unless both are zeros. -/
private theorem unpacked_eq_of_compare {u v : UnpackedFloat} (h : u.compare v = some .eq) :
    u = v ∨ ∃ s t, u = .zero s ∧ v = .zero t := by
  cases u with
  | notANumber => cases h
  | infinity s =>
      cases v with
      | infinity t => cases s <;> cases t <;> first | exact .inl rfl | cases h
      | notANumber => cases h
      | zero t => cases s <;> cases h
      | finite t n e hn => cases s <;> cases h
  | zero s =>
      cases v with
      | zero t => exact .inr ⟨s, t, rfl, rfl⟩
      | notANumber => cases h
      | infinity t => cases t <;> cases h
      | finite t n e hn => cases t <;> cases h
  | finite s m d hm =>
      cases v with
      | finite t n e hn =>
          cases s <;> cases t <;> simp [UnpackedFloat.compare] at h ⊢ <;> exact h.symm
      | notANumber => cases h
      | infinity t => cases s <;> cases t <;> cases h
      | zero t => cases s <;> cases h

private theorem isNumber_magnitude {bits : ℕ} (h : bits ≤ infinityBits) :
    IsNumber (ofMagnitude false bits).toBits.toNat := by
  have hinfinity : infinityBits = 2047 * 2 ^ 52 := rfl
  rw [toBits_ofMagnitude _ h, IsNumber]
  simp only [Bool.false_eq_true, if_false]
  omega

theorem magnitude_eq_of_beq {p q : ℕ} (hp : p ≤ infinityBits) (hq : q ≤ infinityBits)
    (h : (ofMagnitude false p == ofMagnitude false q) = true) : p = q := by
  have hcompare : (ofMagnitude false p).toModel.unpack.compare
      (ofMagnitude false q).toModel.unpack = some .eq := beq_iff_eq.mp h
  have hpack {bits : ℕ} (hbits : bits ≤ infinityBits) : (UnpackedFloat.pack Format.binary64
      (ofMagnitude false bits).toModel.unpack).toNat = bits := by
    have hpattern := congrArg BitVec.toNat
      (pack_unpack (b := (ofMagnitude false bits).toBits.toBitVec) (isNumber_magnitude hbits))
    refine hpattern.trans ?_
    exact (toBits_ofMagnitude false hbits).trans (Nat.zero_add _)
  rcases unpacked_eq_of_compare hcompare with heq | ⟨s, t, hs, ht⟩
  · rw [← hpack hp, heq, hpack hq]
  · have hzero {bits : ℕ} (hbits : bits ≤ infinityBits) {s : UnpackedFloat.Sign}
        (hunpack : (ofMagnitude false bits).toModel.unpack = .zero s) : bits = 0 := by
      have hinfinity : infinityBits = 2047 * 2 ^ 52 := rfl
      have hpattern := hpack hbits
      rw [hunpack] at hpattern
      have hsign : s.toBitVec.toNat * 2 ^ 63 + 0 + 0 = bits :=
        (toNat_packComponents s 0 0).symm.trans hpattern
      omega
    rw [hzero hp hs, hzero hq ht]

/-! Decimals -/

theorem Dyadic.ratio_pos (d : Dyadic) : 0 < d.ratio.2 := by
  rw [ratio]
  split
  · exact one_pos
  · exact Nat.pow_pos (by decide)

theorem Dyadic.ratio_value (d : Dyadic) : (d.ratio.1 : ℚ) / d.ratio.2 = d.value := by
  rw [ratio, value]
  split
  next hup =>
    rw [zpow_of_nonneg 2 hup]
    push_cast
    rw [div_one]
  next hdown =>
    rw [zpow_of_neg 2 hdown, ← div_eq_mul_inv]
    push_cast
    rfl

def Decimal.value (d : Decimal) : ℚ :=
  d.digits * 10 ^ d.exponent

theorem Decimal.toFloat_eq (d : Decimal) : d.toFloat = nearest false d.value :=
  Numeral.toFloat_eq _

theorem Dyadic.exact_value (d : Dyadic) : d.exact.value = d.value := by
  rw [exact, Decimal.value, value]
  split
  next hup =>
    rw [zpow_of_nonneg 2 hup, zpow_zero, mul_one]
    push_cast
    rfl
  next hdown =>
    have hten : (10 : ℚ) ^ d.exponent = 5 ^ d.exponent * 2 ^ d.exponent := by
      rw [← mul_zpow]
      norm_num
    have hfive : (5 : ℚ) ^ (-d.exponent).toNat * 5 ^ d.exponent = 1 := by
      rw [zpow_of_neg 5 hdown]
      exact mul_inv_cancel₀ (pow_ne_zero _ (by norm_num))
    push_cast
    rw [hten, mul_assoc, ← mul_assoc (5 ^ _), hfive, one_mul]

theorem nearestBits_le (q : ℚ) : nearestBits q ≤ infinityBits := by
  rw [nearestBits]
  split
  · exact Nat.zero_le _
  · exact min_le_right _ _

/-- The digits that are chosen for a number read back as the number. -/
theorem nearestBits_shortest (tie : Tie) (d : Dyadic) :
    nearestBits (shortest tie d).value = nearestBits d.value := by
  rw [shortest]
  simp only
  generalize (List.range 17).flatMap _ = candidates
  cases hfind : candidates.find? fun c => c.toFloat == ofRatio false d.ratio.1 d.ratio.2 with
  | none => rw [Option.getD_none, d.exact_value]
  | some c =>
      have hread := List.find?_some hfind
      rw [Decimal.toFloat_eq, ofRatio_eq _ _ d.ratio_pos, d.ratio_value] at hread
      exact magnitude_eq_of_beq (nearestBits_le _) (nearestBits_le _) hread

/-! Digits -/

theorem digitsValue_append (front back : List Char) :
    digitsValue (front ++ back) = 10 ^ back.length * digitsValue front + digitsValue back :=
  (Nat.ofDigitChars_append 0).trans Nat.ofDigitChars_eq_ofDigitChars_zero

theorem digitsValue_zeros (n : ℕ) : digitsValue (zeros n) = 0 :=
  Nat.ofDigitChars_replicate_zero.trans (Nat.mul_zero _)

theorem digitsValue_toDigits (n : ℕ) : digitsValue (Nat.toDigits 10 n) = n :=
  Nat.ofDigitChars_ten_toDigits

theorem Decimal.stripZeros_value (d : Decimal) : d.stripZeros.value = d.value := by
  rw [stripZeros]
  split
  next hzero => rw [value, value, hzero, Nat.cast_zero, zero_mul, zero_mul]
  next hpos =>
    generalize htext : (Nat.toDigits 10 d.digits).reverse = text
    have hsplit := List.takeWhile_append_dropWhile (p := (· == '0')) (l := text)
    have hzeros : text.takeWhile (· == '0') = zeros (text.takeWhile (· == '0')).length :=
      List.eq_replicate_of_mem fun c hc =>
        beq_iff_eq.mp (List.mem_takeWhile_imp (p := (· == '0')) hc)
    generalize text.takeWhile (· == '0') = tail at hsplit hzeros
    generalize text.dropWhile (· == '0') = front at hsplit
    -- The digits are those in front and the zeros after them.
    have hdigits : Nat.toDigits 10 d.digits = front.reverse ++ zeros tail.length := by
      rw [← List.reverse_reverse (Nat.toDigits 10 d.digits), htext, ← hsplit, List.reverse_append]
      exact congrArg _ ((congrArg List.reverse hzeros).trans List.reverse_replicate)
    have hvalue : d.digits = 10 ^ tail.length * digitsValue front.reverse := by
      rw [← digitsValue_toDigits d.digits, hdigits, digitsValue_append, digitsValue_zeros,
        zeros, List.length_replicate, Nat.add_zero]
    have hpow : (10 : ℚ) ^ tail.length ≠ 0 := pow_ne_zero _ (by norm_num)
    rw [value, value, hvalue, Nat.mul_div_cancel_left _ (Nat.pow_pos (by decide)),
      zpow_add₀ (by norm_num), zpow_natCast]
    push_cast
    ring

/-! What a layout writes -/

def Mantissa.value (m : Mantissa) : ℚ :=
  digitsValue (m.before ++ m.after) * 10 ^ (-(m.after.length : ℤ))

private theorem Mantissa.value_whole (before : Digits) (h : before.chars ≠ []) :
    (whole before h).value = digitsValue before.chars := by
  have hafter : (whole before h).after = [] := rfl
  have hbefore : (whole before h).before = before.chars := rfl
  rw [value, hafter, hbefore, List.append_nil, List.length_nil, Nat.cast_zero, neg_zero, zpow_zero,
    mul_one]

private theorem Mantissa.value_pointed_zero (before : Digits) (h : before.chars ≠ []) :
    (pointed before h ⟨['0'], rfl⟩).value = digitsValue before.chars := by
  have hafter : (pointed before h ⟨['0'], rfl⟩).after = ['0'] := rfl
  have hbefore : (pointed before h ⟨['0'], rfl⟩).before = before.chars := rfl
  have hzero : digitsValue ['0'] = 0 := rfl
  rw [value, hafter, hbefore, digitsValue_append, hzero, List.length_singleton, Nat.add_zero,
    pow_one, Nat.cast_one, zpow_neg_one]
  push_cast
  ring

theorem Literal.value_numeral (l : Literal) :
    l.numeral.value = l.mantissa.value * 10 ^ (l.power.map Power.value).getD 0 := by
  rw [Numeral.value, Mantissa.value, mul_assoc, ← zpow_add₀ (by norm_num), neg_add_eq_sub]
  rfl

private theorem digit_toDigits (n : ℕ) : (Nat.toDigits 10 n).all Char.isDigit = true :=
  List.all_eq_true.mpr fun _ hc => Nat.isDigit_of_mem_toDigits (by decide) (by decide) hc

private theorem digit_zeros (n : ℕ) : (zeros n).all Char.isDigit = true :=
  List.all_eq_true.mpr fun _ hc => List.eq_of_mem_replicate hc ▸ rfl

private theorem digit_append {front back : List Char} (hfront : front.all Char.isDigit = true)
    (hback : back.all Char.isDigit = true) : (front ++ back).all Char.isDigit = true := by
  rw [List.all_append, hfront, hback, Bool.and_self]

private theorem toDigits_ne_nil (n : ℕ) : Nat.toDigits 10 n ≠ [] :=
  List.length_pos_iff.mp Nat.length_toDigits_pos

private theorem exists_positional {layout : Layout} {d : Decimal}
    (h : layout.positional (d.exponent + (Nat.toDigits 10 d.digits).length) = true) :
    ∃ m : Mantissa, m.text = layout.write d ∧ m.value = d.value := by
  simp only [Layout.write, h, if_true]
  have hdigits := digit_toDigits d.digits
  have hfilled := toDigits_ne_nil d.digits
  have hn := digitsValue_toDigits d.digits
  generalize Nat.toDigits 10 d.digits = digits at hdigits hfilled hn ⊢
  split
  next hwhole =>
    -- Zeros up to the point, and perhaps one after it.
    have hbefore := digit_append hdigits (digit_zeros d.exponent.toNat)
    have hvalue : (digitsValue (digits ++ zeros d.exponent.toNat) : ℚ) = d.value := by
      rw [digitsValue_append, digitsValue_zeros, hn, zeros, List.length_replicate, Decimal.value,
        zpow_of_nonneg 10 hwhole]
      push_cast
      ring
    have hne := List.append_ne_nil_of_left_ne_nil hfilled (zeros d.exponent.toNat)
    cases layout.keepsFraction with
    | false => exact ⟨.whole ⟨_, hbefore⟩ hne, rfl, (Mantissa.value_whole _ _).trans hvalue⟩
    | true =>
        exact ⟨.pointed ⟨_, hbefore⟩ hne ⟨['0'], rfl⟩, rfl,
          (Mantissa.value_pointed_zero _ _).trans hvalue⟩
  next hfraction =>
    have hvalue (m : Mantissa) (hm : digitsValue (m.before ++ m.after) = d.digits)
        (hlength : -(m.after.length : ℤ) = d.exponent) : m.value = d.value := by
      rw [Mantissa.value, hm, hlength, Decimal.value]
    split
    next hpoint =>
      -- The point stands between the digits.
      have hsplit := List.take_append_drop (d.exponent + digits.length).toNat digits
      have hlength : (digits.take (d.exponent + digits.length).toNat).length =
          (d.exponent + digits.length).toNat := List.length_take_of_le (by omega)
      generalize digits.take (d.exponent + digits.length).toNat = before at hsplit hlength ⊢
      generalize digits.drop (d.exponent + digits.length).toNat = after at hsplit ⊢
      subst hsplit
      rw [List.all_append, Bool.and_eq_true] at hdigits
      rw [List.length_append] at hlength hpoint
      have hne : before ≠ [] := List.ne_nil_of_length_pos (by omega)
      refine ⟨.pointed ⟨before, hdigits.1⟩ hne ⟨after, hdigits.2⟩, rfl, hvalue _ hn ?_⟩
      change -(after.length : ℤ) = d.exponent
      omega
    next hsmall =>
      -- Zeros up to the first digit.
      have hafter := digit_append (digit_zeros (-(d.exponent + digits.length)).toNat) hdigits
      refine ⟨.pointed ⟨['0'], rfl⟩ (List.cons_ne_nil _ _) ⟨_, hafter⟩, rfl, hvalue _ ?_ ?_⟩
      · change digitsValue (zeros (_ + 1) ++ digits) = d.digits
        rw [digitsValue_append, digitsValue_zeros, Nat.mul_zero, Nat.zero_add, hn]
      · change -((zeros _ ++ digits).length : ℤ) = d.exponent
        rw [List.length_append, zeros, List.length_replicate]
        omega

private def writtenPower (width : ℕ) (power : ℤ) : Power where
  capital := false
  sign := if power < 0 then .minus else .plus
  digits := ⟨padLeft width (Nat.toDigits 10 power.natAbs),
    digit_append (digit_zeros _) (digit_toDigits _)⟩
  filled := List.append_ne_nil_of_right_ne_nil _ (toDigits_ne_nil _)

private theorem text_writtenPower (width : ℕ) (power : ℤ) : (writtenPower width power).text =
    'e' :: (if power < 0 then '-' else '+') ::
      padLeft width (Nat.toDigits 10 power.natAbs) := by
  rw [Power.text, writtenPower]
  split <;> rfl

private theorem value_writtenPower (width : ℕ) (power : ℤ) :
    (writtenPower width power).value = power := by
  have hdigits : digitsValue (writtenPower width power).digits.chars = power.natAbs := by
    change digitsValue (zeros _ ++ _) = _
    rw [digitsValue_append, digitsValue_zeros, digitsValue_toDigits, Nat.mul_zero, Nat.zero_add]
  rw [Power.value, hdigits]
  change (if (if power < 0 then SignMark.minus else .plus).negative then _ else _) = _
  by_cases hnegative : power < 0
  · rw [if_pos hnegative]
    exact (if_pos rfl).trans (by omega)
  · rw [if_neg hnegative]
    exact (if_neg (by decide)).trans (by omega)

private theorem exists_scientific {layout : Layout} {d : Decimal}
    (h : layout.positional (d.exponent + (Nat.toDigits 10 d.digits).length) = false) :
    ∃ m : Mantissa, m.text ++ (writtenPower layout.exponentWidth
          (d.exponent + (Nat.toDigits 10 d.digits).length - 1)).text = layout.write d ∧
      m.value = d.digits * 10 ^ (1 - (Nat.toDigits 10 d.digits).length : ℤ) := by
  simp only [Layout.write, h, text_writtenPower, Bool.false_eq_true, if_false]
  have hdigits := digit_toDigits d.digits
  have hfilled := toDigits_ne_nil d.digits
  have hn := digitsValue_toDigits d.digits
  generalize Nat.toDigits 10 d.digits = digits at hdigits hfilled hn ⊢
  generalize 'e' :: _ = power
  split
  next c =>
    have hvalue : (digitsValue [c] : ℚ) = d.digits * 10 ^ (1 - ([c].length : ℤ)) := by
      rw [hn, List.length_singleton, Nat.cast_one, sub_self, zpow_zero, mul_one]
    cases layout.keepsMantissaFraction with
    | false => exact ⟨.whole ⟨_, hdigits⟩ hfilled, rfl, (Mantissa.value_whole _ _).trans hvalue⟩
    | true =>
        exact ⟨.pointed ⟨_, hdigits⟩ hfilled ⟨['0'], rfl⟩, rfl,
          (Mantissa.value_pointed_zero _ _).trans hvalue⟩
  next c cs _ =>
    rw [List.all_cons, Bool.and_eq_true] at hdigits
    have hfirst : [c].all Char.isDigit = true := by
      rw [List.all_cons, hdigits.1]
      rfl
    have hlength : 1 - ((c :: cs).length : ℤ) = -cs.length := by
      rw [List.length_cons]
      omega
    refine ⟨.pointed ⟨[c], hfirst⟩ (List.cons_ne_nil _ _) ⟨cs, hdigits.2⟩, rfl, ?_⟩
    rw [hlength, ← hn]
    rfl
  next => exact absurd rfl hfilled

/-- What a layout writes is a numeral of the decimal's value. -/
theorem exists_write (layout : Layout) (d : Decimal) :
    ∃ l : Literal, l.sign = .none ∧ l.text = layout.write d ∧ l.numeral.value = d.value := by
  cases h : layout.positional (d.exponent + (Nat.toDigits 10 d.digits).length) with
  | true =>
      obtain ⟨m, htext, hvalue⟩ := exists_positional h
      refine ⟨⟨.none, m, none⟩, rfl, ?_, ?_⟩
      · rw [← htext]
        exact List.append_nil _
      · rw [Literal.value_numeral, hvalue]
        exact mul_one _
  | false =>
      obtain ⟨m, htext, hvalue⟩ := exists_scientific h
      refine ⟨⟨.none, m, some (writtenPower _ _)⟩, rfl, htext, ?_⟩
      have hexponent : 1 - ((Nat.toDigits 10 d.digits).length : ℤ) +
          (d.exponent + (Nat.toDigits 10 d.digits).length - 1) = d.exponent := by ring
      rw [Literal.value_numeral, hvalue, Option.map_some, Option.getD_some, value_writtenPower,
        mul_assoc, ← zpow_add₀ (by norm_num), hexponent]
      rfl

def SignMark.written (negative : Bool) : SignMark :=
  if negative then minus else none

theorem SignMark.text_written (negative : Bool) :
    (written negative).text = if negative then ['-'] else [] := by
  cases negative <;> rfl

theorem SignMark.negative_written (negative : Bool) : (written negative).negative = negative := by
  cases negative <;> rfl

/-- The text of a finite double is a numeral that is read as this double, bit by bit. -/
theorem exists_text (layout : Layout) {x : Float} (h : isFinite x = true) :
    ∃ l : Literal, l.text = (layout.text x).toList ∧ l.value = x := by
  obtain ⟨d, hd⟩ := Option.isSome_iff_exists.mp h
  obtain ⟨c, htext, hbits⟩ : ∃ c : Decimal, (layout.text x).toList =
      (if d.negative then ['-'] else []) ++ layout.write c ∧
        nearestBits c.value = nearestBits d.value := by
    rw [Layout.text, hd]
    simp only [String.toList_ofList]
    refine ⟨_, rfl, ?_⟩
    by_cases hzero : d.significand = 0
    · rw [if_pos hzero, Decimal.value, Dyadic.value, hzero, Nat.cast_zero, zero_mul, zero_mul]
    · rw [if_neg hzero, Decimal.stripZeros_value, nearestBits_shortest]
  obtain ⟨l, hsign, hwrite, hvalue⟩ := exists_write layout c
  refine ⟨⟨.written d.negative, l.mantissa, l.power⟩, ?_, ?_⟩
  · rw [htext, ← hwrite, Literal.text, Literal.text, hsign, ← SignMark.text_written]
    rfl
  · calc Literal.value ⟨.written d.negative, l.mantissa, l.power⟩
        = nearest (SignMark.written d.negative).negative l.numeral.value := Numeral.toFloat_eq _
      _ = ofMagnitude d.negative (nearestBits d.value) := by
          rw [nearest, SignMark.negative_written, hvalue, hbits]
      _ = x := nearest_value hd

end Gazetteer.Number
