import Mathlib
import Gazetteer.Text.Blank
import Gazetteer.Text.Letter
import Gazetteer.Text.Lowercase
/-!
Lowercased text: it has no capital letters A to Z, and is the same whether it is lowercased as a
whole or word by word, since a space keeps the letters around it apart.
-/

namespace Gazetteer.Text

/-! What stands for a character -/

/-- Every shift ends beyond `Z`, and on code points that are characters. -/
private theorem shifts_beyond : lowercaseShifts.all (fun (first, last, _, shift) =>
    90 < (first + shift : Int) && ((last + shift : Int) < 0xD800 ||
      (0xDFFF < (first + shift : Int) && (last + shift : Int) < 0x110000))) = true := by
  decide

/-- Of the shifts, only that of the Kelvin sign ends on an ASCII character. -/
private theorem shifts_foreign : lowercaseShifts.all (fun (first, last, _, shift) =>
    0x80 ≤ (first + shift : Int) || (first == last && (first + shift : Int) == 107)) = true := by
  decide

private theorem toLower_of_beyond {c : Char} (h : 90 < c.toNat) : c.toLower = c := by
  have hnot : ¬(c.val ≥ 'A'.val ∧ c.val ≤ 'Z'.val) := by
    rintro ⟨-, hle⟩
    have : c.toNat ≤ 90 := hle
    omega
  exact dif_neg hnot

private theorem lowercaseChar_cases (c : Char) :
    lowercaseChar c = [c.toLower] ∨ (0x80 ≤ c.toNat ∧
      (∀ d ∈ lowercaseChar c, 90 < d.toNat) ∧
        ∃ d ∈ lowercaseChar c, 0x80 ≤ d.toNat ∨ d.toNat = 107) := by
  unfold lowercaseChar
  split
  next => exact Or.inl rfl
  next hlarge =>
    have hlarge : 0x80 ≤ c.toNat := Nat.not_lt.mp hlarge
    refine Or.inr ⟨hlarge, ?_⟩
    split
    next =>
      refine ⟨fun d hd => ?_, Char.ofNat 0x307, by simp, Or.inl (by decide)⟩
      simp only [List.mem_cons, List.not_mem_nil, or_false] at hd
      rcases hd with rfl | rfl <;> decide
    next =>
      split
      next first last step shift hfind =>
        have hentry := List.all_eq_true.mp shifts_beyond _ (List.mem_of_find?_eq_some hfind)
        have hforeign := List.all_eq_true.mp shifts_foreign _ (List.mem_of_find?_eq_some hfind)
        have hrange := List.find?_some hfind
        simp only [Bool.and_eq_true, Bool.or_eq_true, decide_eq_true_eq, beq_iff_eq]
          at hentry hforeign hrange
        have hvalid : (c.toNat + shift : Int).toNat.isValidChar := by
          unfold Nat.isValidChar
          omega
        have hnat : (Char.ofNat (c.toNat + shift : Int).toNat).toNat =
            (c.toNat + shift : Int).toNat := by
          rw [Char.toNat_ofNat, if_pos hvalid]
        refine ⟨List.forall_mem_singleton.mpr ?_, _, List.mem_singleton_self _, ?_⟩
        · rw [hnat]
          omega
        · rw [hnat]
          omega
      next =>
        refine ⟨List.forall_mem_singleton.mpr ?_, c, List.mem_singleton_self c, Or.inl hlarge⟩
        omega

theorem toNat_toLower_of_capital {c : Char} (h : c.val ≥ 'A'.val ∧ c.val ≤ 'Z'.val) :
    c.toLower.toNat = c.toNat + 32 := by
  have hle : c.val.toNat ≤ 90 := h.2
  rw [show c.toLower = ⟨c.val + ('a'.val - 'A'.val), _⟩ from dif_pos h]
  change (c.val + 32).toNat = c.val.toNat + 32
  rw [UInt32.toNat_add]
  change (c.val.toNat + 32) % 2 ^ 32 = c.val.toNat + 32
  exact Nat.mod_eq_of_lt (by omega)

private theorem toLower_toLower (c : Char) : c.toLower.toLower = c.toLower := by
  by_cases h : c.val ≥ 'A'.val ∧ c.val ≤ 'Z'.val
  · have hge : 65 ≤ c.toNat := h.1
    exact toLower_of_beyond (by rw [toNat_toLower_of_capital h]; omega)
  · rw [show c.toLower = c from dif_neg h]
    exact dif_neg h

private theorem toLower_of_mem_lowercaseAfter {before cs : List Char} {d : Char}
    (h : d ∈ lowercaseAfter before cs) : d.toLower = d := by
  induction cs generalizing before with
  | nil => simp [lowercaseAfter] at h
  | cons c cs ih =>
      rcases List.mem_append.mp h with hhead | htail
      · split at hhead
        next =>
          rw [List.mem_singleton, lowercaseSigma] at hhead
          split at hhead <;> subst hhead <;> decide
        next =>
          rcases lowercaseChar_cases c with hplain | ⟨-, hbeyond, -⟩
          · rw [hplain, List.mem_singleton] at hhead
            subst hhead
            exact toLower_toLower c
          · exact toLower_of_beyond (hbeyond d hhead)
      · exact ih htail

theorem toLower_of_mem_lowercase {s : String} {c : Char} (h : c ∈ (lowercase s).toList) :
    c.toLower = c := by
  rw [lowercase, String.toList_ofList] at h
  exact toLower_of_mem_lowercaseAfter h

theorem ne_nul_of_mem_lowercase {s : String} (hs : ∀ c ∈ s.toList, c.toNat ≠ 0) :
    ∀ c ∈ (lowercase s).toList, c.toNat ≠ 0 := by
  have hchar {c d : Char} (hc : c.toNat ≠ 0) (hd : d ∈ lowercaseChar c) : d.toNat ≠ 0 := by
    rcases lowercaseChar_cases c with hplain | ⟨-, hbeyond, -⟩
    · rw [hplain, List.mem_singleton] at hd
      subst hd
      by_cases h : c.val ≥ 'A'.val ∧ c.val ≤ 'Z'.val
      · rw [toNat_toLower_of_capital h]
        omega
      · rwa [show c.toLower = c from dif_neg h]
    · have hlarge := hbeyond d hd
      omega
  have hafter (before cs : List Char) (hcs : ∀ c ∈ cs, c.toNat ≠ 0) :
      ∀ c ∈ lowercaseAfter before cs, c.toNat ≠ 0 := by
    induction cs generalizing before with
    | nil => exact fun c hc => absurd hc List.not_mem_nil
    | cons c cs ih =>
        obtain ⟨hc, hcs⟩ := List.forall_mem_cons.mp hcs
        refine List.forall_mem_append.mpr ⟨fun d hd => ?_, ih _ hcs⟩
        split at hd
        · rw [List.mem_singleton, lowercaseSigma] at hd
          split at hd <;> subst hd <;> decide
        · exact hchar hc hd
  rw [lowercase, String.toList_ofList]
  exact hafter [] s.toList hs

/-! Lowercasing letters of either case -/

private theorem capital_or_toLower_eq (c : Char) :
    (65 ≤ c.toNat ∧ c.toNat ≤ 90) ∨ c.toLower = c := by
  by_cases h : c.val ≥ 'A'.val ∧ c.val ≤ 'Z'.val
  · exact Or.inl ⟨h.1, h.2⟩
  · exact Or.inr (dif_neg h)

private theorem outside_of_between {ranges : List (Nat × Nat)} (low high : Nat) {c : Char}
    (h : (ranges.all fun range => range.2 < low || high < range.1) = true)
    (hlow : low ≤ c.toNat) (hhigh : c.toNat ≤ high) :
    (ranges.any fun (first, last) => first ≤ c.toNat && c.toNat ≤ last) = false := by
  refine List.any_eq_false.mpr fun range hrange => ?_
  have hapart := List.all_eq_true.mp h range hrange
  simp only [Bool.or_eq_true, Bool.and_eq_true, decide_eq_true_eq] at hapart ⊢
  omega

private theorem isCaseIgnorable_of_between (low high : Nat) {c : Char}
    (h : (caseIgnorableRanges.all fun range => range.2 < low || high < range.1) = true)
    (hlow : low ≤ c.toNat) (hhigh : c.toNat ≤ high) : isCaseIgnorable c = false :=
  outside_of_between low high h hlow hhigh

private theorem isCased_of_between {low high : Nat} {c : Char} (h : (low, high) ∈ casedRanges)
    (hlow : low ≤ c.toNat) (hhigh : c.toNat ≤ high) : isCased c = true := by
  refine List.any_eq_true.mpr ⟨_, h, ?_⟩
  simp only [Bool.and_eq_true, decide_eq_true_eq]
  exact ⟨hlow, hhigh⟩

/-- What sigmas look at does not depend on the case of letters A to Z. -/
private theorem case_toLower (c : Char) :
    isCaseIgnorable c.toLower = isCaseIgnorable c ∧ isCased c.toLower = isCased c := by
  rcases capital_or_toLower_eq c with ⟨hlow, hhigh⟩ | h
  · have hlower : c.toLower.toNat = c.toNat + 32 := toNat_toLower_of_capital ⟨hlow, hhigh⟩
    have hfirst : 97 ≤ c.toLower.toNat := by omega
    have hlast : c.toLower.toNat ≤ 122 := by omega
    rw [isCaseIgnorable_of_between 65 90 (by decide +kernel) hlow hhigh,
      isCaseIgnorable_of_between 97 122 (by decide +kernel) hfirst hlast,
      isCased_of_between (List.mem_cons_self) hlow hhigh,
      isCased_of_between (List.mem_cons_of_mem _ List.mem_cons_self) hfirst hlast]
    exact ⟨rfl, rfl⟩
  · rw [h]
    exact ⟨rfl, rfl⟩

private theorem leadsToCased_map_toLower (cs : List Char) :
    leadsToCased (cs.map Char.toLower) = leadsToCased cs := by
  induction cs with
  | nil => rfl
  | cons c cs ih =>
      obtain ⟨hignorable, hcased⟩ := case_toLower c
      by_cases hc : isCaseIgnorable c = true
      · simpa [leadsToCased, hignorable, hc] using ih
      · simp [leadsToCased, hignorable, hc, hcased]

private theorem lowercaseChar_toLower (c : Char) : lowercaseChar c.toLower = lowercaseChar c := by
  rcases capital_or_toLower_eq c with ⟨hlow, hhigh⟩ | h
  · have hlower : c.toLower.toNat = c.toNat + 32 := toNat_toLower_of_capital ⟨hlow, hhigh⟩
    rw [lowercaseChar, lowercaseChar, if_pos (by omega), if_pos (by omega), toLower_toLower]
  · rw [h]

private theorem lowercaseAfter_map_toLower (before cs : List Char) :
    lowercaseAfter (before.map Char.toLower) (cs.map Char.toLower) = lowercaseAfter before cs := by
  induction cs generalizing before with
  | nil => rfl
  | cons c cs ih =>
      have hsigma : (c.toLower.toNat == 0x3A3) = (c.toNat == 0x3A3) := by
        rcases capital_or_toLower_eq c with ⟨hlow, hhigh⟩ | h
        · have hlower : c.toLower.toNat = c.toNat + 32 := toNat_toLower_of_capital ⟨hlow, hhigh⟩
          rw [hlower, beq_false_of_ne (by omega), beq_false_of_ne (by omega)]
        · rw [h]
      have hrest := ih (c :: before)
      rw [List.map_cons] at hrest
      rw [List.map_cons, lowercaseAfter, lowercaseAfter, hrest, hsigma, lowercaseChar_toLower,
        lowercaseSigma, lowercaseSigma, leadsToCased_map_toLower, leadsToCased_map_toLower]

/-- Texts that agree up to the case of A to Z have one lowercase form. -/
theorem lowercase_eq_of_sameLetters {a b : String} (h : sameLetters a b = true) :
    lowercase a = lowercase b := by
  have hfold : a.toList.map Char.toLower = b.toList.map Char.toLower :=
    String.ofList_inj.mp (beq_iff_eq.mp h)
  have hafter := lowercaseAfter_map_toLower [] a.toList
  rw [hfold, lowercaseAfter_map_toLower [] b.toList] at hafter
  rw [lowercase, lowercase, hafter]

/-- Nothing but itself up to the case of A to Z has an ASCII text without a k as its lowercase
form; a k is that of the Kelvin sign too. -/
theorem fold_eq_of_lowercase_eq {a b : String}
    (hb : ∀ c ∈ b.toList, c.toNat < 0x80 ∧ c.toNat ≠ 107) (h : lowercase a = b) : fold a = b := by
  have hchars (before cs : List Char)
      (hcs : ∀ c ∈ lowercaseAfter before cs, c.toNat < 0x80 ∧ c.toNat ≠ 107) :
      cs.map Char.toLower = lowercaseAfter before cs := by
    induction cs generalizing before with
    | nil => rfl
    | cons c cs ih =>
        rw [lowercaseAfter] at hcs ⊢
        obtain ⟨hhead, htail⟩ := List.forall_mem_append.mp hcs
        rw [List.map_cons, ih _ htail]
        split at hhead
        next hsigma =>
          rw [List.forall_mem_singleton, lowercaseSigma] at hhead
          split at hhead <;> exact absurd hhead.1 (by decide)
        next hsigma =>
          rw [if_neg hsigma]
          rcases lowercaseChar_cases c with hplain | ⟨-, -, d, hd, hforeign⟩
          · rw [hplain]
            rfl
          · obtain ⟨hascii, hk⟩ := hhead d hd
            omega
  have htext : lowercaseAfter [] a.toList = b.toList := by
    rw [← h, lowercase, String.toList_ofList]
  rw [fold, hchars [] a.toList (by rwa [htext]), htext, String.ofList_toList]

/-! Lowercasing around a space -/

/-- A character without case that sigmas do not look past. -/
def KeepsApart (c : Char) : Prop :=
  isCaseIgnorable c = false ∧ isCased c = false

theorem leadsToCased_append {c : Char} (hc : KeepsApart c) (cs ds : List Char) :
    leadsToCased (cs ++ c :: ds) = leadsToCased cs := by
  induction cs with
  | nil => simp [leadsToCased, hc.1, hc.2]
  | cons d cs ih =>
      by_cases hd : isCaseIgnorable d = true
      · simpa [leadsToCased, hd] using ih
      · simp [leadsToCased, hd]

private def blankRanges : List (Nat × Nat) :=
  [(0x09, 0x0D), (0x20, 0x20), (0x85, 0x85), (0xA0, 0xA0), (0x1680, 0x1680), (0x2000, 0x200A),
    (0x2028, 0x2028), (0x2029, 0x2029), (0x202F, 0x202F), (0x205F, 0x205F), (0x3000, 0x3000)]

private theorem blankRanges_apart : (blankRanges.all fun blank =>
    (caseIgnorableRanges ++ casedRanges).all fun range =>
      range.2 < blank.1 || blank.2 < range.1) = true := by
  decide +kernel

theorem keepsApart_of_isBlank {c : Char} (h : isBlank c = true) : KeepsApart c := by
  obtain ⟨⟨low, high⟩, hrange, hlow, hhigh⟩ :
      ∃ range ∈ blankRanges, range.1 ≤ c.toNat ∧ c.toNat ≤ range.2 := by
    simp only [isBlank, Bool.or_eq_true, Bool.and_eq_true, decide_eq_true_eq, beq_iff_eq] at h
    simp only [blankRanges, List.exists_mem_cons_iff, List.not_mem_nil, false_and, exists_false]
    omega
  have hapart := List.all_eq_true.mp blankRanges_apart _ hrange
  rw [List.all_append, Bool.and_eq_true] at hapart
  exact ⟨outside_of_between low high hapart.1 hlow hhigh,
    outside_of_between low high hapart.2 hlow hhigh⟩

private theorem keepsApart_space : KeepsApart ' ' :=
  keepsApart_of_isBlank rfl

private theorem lowercaseAfter_append_space (before past : List Char) (cs : List Char) :
    lowercaseAfter (before ++ ' ' :: past) cs = lowercaseAfter before cs := by
  induction cs generalizing before with
  | nil => rfl
  | cons c cs ih =>
      have hsigma : lowercaseSigma (before ++ ' ' :: past) cs = lowercaseSigma before cs := by
        simp only [lowercaseSigma, leadsToCased_append keepsApart_space]
      rw [lowercaseAfter, lowercaseAfter, hsigma, ← List.cons_append, ih]

private theorem lowercaseAfter_append (before cs ds : List Char) :
    lowercaseAfter before (cs ++ ' ' :: ds) =
      lowercaseAfter before cs ++ ' ' :: lowercaseAfter [] ds := by
  induction cs generalizing before with
  | nil =>
      have hafter : lowercaseAfter (' ' :: before) ds = lowercaseAfter [] ds :=
        lowercaseAfter_append_space [] before ds
      simp only [List.nil_append, lowercaseAfter, hafter]
      rfl
  | cons c cs ih =>
      have hsigma : lowercaseSigma before (cs ++ ' ' :: ds) = lowercaseSigma before cs := by
        simp only [lowercaseSigma, leadsToCased_append keepsApart_space]
      rw [List.cons_append, lowercaseAfter, lowercaseAfter, hsigma, ih, List.append_assoc]

theorem toList_lowercase_intercalate (parts : List String) :
    (lowercase (String.intercalate " " parts)).toList =
      List.intercalate [' '] (parts.map fun part => (lowercase part).toList) := by
  rw [lowercase, String.toList_ofList, String.toList_intercalate]
  induction parts with
  | nil => rfl
  | cons first rest ih =>
      cases rest with
      | nil => simp [lowercase]
      | cons second rest =>
          simp only [List.map_cons, List.intercalate_cons_cons] at ih ⊢
          rw [show " ".toList = [' '] from rfl] at ih ⊢
          rw [List.append_assoc, List.singleton_append, lowercaseAfter_append, ih, List.append_assoc,
            List.singleton_append]
          simp only [lowercase, String.toList_ofList]

end Gazetteer.Text
