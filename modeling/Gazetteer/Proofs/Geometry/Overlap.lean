import Mathlib
import Gazetteer.Geometry.Box
/-!
How much two boxes overlap, over exact coordinates.  A box stands for a rectangle of the plane, an
inverted one for no point at all, and the overlap is the share of the common area in the area that
the two rectangles cover.
-/

namespace Gazetteer.Box

open MeasureTheory

def Upright (b : Box ℚ) : Prop :=
  b.minX ≤ b.maxX ∧ b.minY ≤ b.maxY

def region (b : Box ℚ) : Set (ℝ × ℝ) :=
  Set.Icc (b.minX : ℝ) b.maxX ×ˢ Set.Icc (b.minY : ℝ) b.maxY

namespace Exact

/-- Rational arithmetic, with the quotients that a function gives. -/
abbrev arithmetic (quotient : ℚ → ℚ → ℚ) : Coordinate ℚ where
  div := quotient
  zero := 0
  one := 1
  atMost x y := x ≤ y
  larger := max
  smaller := min

/-- The overlap of two boxes, with the quotients that a function gives. -/
def overlapWith (quotient : ℚ → ℚ → ℚ) (a b : Box ℚ) : ℚ :=
  letI := arithmetic quotient
  a.overlap b

section

local instance : Coordinate ℚ :=
  arithmetic (· / ·)

def area (b : Box ℚ) : ℚ :=
  b.area

def intersects (a b : Box ℚ) : Bool :=
  a.intersects b

def intersection (a b : Box ℚ) : Option (Box ℚ) :=
  a.intersection b

def overlap (a b : Box ℚ) : ℚ :=
  a.overlap b

end

/-- The box between the inner edges of two boxes. -/
def common (a b : Box ℚ) : Box ℚ where
  minX := max a.minX b.minX
  minY := max a.minY b.minY
  maxX := min a.maxX b.maxX
  maxY := min a.maxY b.maxY

variable {a b e : Box ℚ}

/-! Areas -/

private theorem side_eq (low high : ℚ) :
    @side ℚ (arithmetic (· / ·)) low high = max (high - low) 0 := by
  change (if (decide (0 ≤ high - low) && !decide (high - low ≤ 0)) = true
    then high - low else 0) = _
  rcases lt_or_ge 0 (high - low) with h | h
  · rw [max_eq_left h.le, decide_eq_true h.le, decide_eq_false h.not_ge]
    rfl
  · rw [max_eq_right h, decide_eq_true h, Bool.not_true, Bool.and_false]
    rfl

theorem area_eq (b : Box ℚ) : area b = max (b.maxX - b.minX) 0 * max (b.maxY - b.minY) 0 := by
  rw [← side_eq, ← side_eq]
  rfl

theorem area_nonneg (b : Box ℚ) : 0 ≤ area b := by
  rw [area_eq]
  exact mul_nonneg (le_max_right _ _) (le_max_right _ _)

theorem volume_region (b : Box ℚ) : volume b.region = ENNReal.ofReal (area b) := by
  have hside (low high : ℚ) :
      ENNReal.ofReal ((high : ℝ) - low) = ENNReal.ofReal ((max (high - low) 0 : ℚ) : ℝ) := by
    rw [Rat.cast_max, Rat.cast_sub, Rat.cast_zero, ENNReal.ofReal_max, ENNReal.ofReal_zero]
    exact (max_eq_left zero_le).symm
  have hwidth : (0 : ℝ) ≤ (max (b.maxX - b.minX) 0 : ℚ) := by exact_mod_cast le_max_right _ _
  rw [region, Measure.volume_eq_prod, Measure.prod_prod, Real.volume_Icc, Real.volume_Icc, hside,
    hside, ← ENNReal.ofReal_mul hwidth, area_eq, Rat.cast_mul]

theorem volume_region_pos : 0 < volume b.region ↔ 0 < area b := by
  rw [volume_region, ENNReal.ofReal_pos, Rat.cast_pos]

/-! The common part -/

theorem common_comm (a b : Box ℚ) : common a b = common b a := by
  simp only [common, max_comm, min_comm]

theorem region_common (a b : Box ℚ) : (common a b).region = a.region ∩ b.region := by
  simp only [region, common, Set.prod_inter_prod, Set.Icc_inter_Icc, Rat.cast_max, Rat.cast_min]

private theorem common_sides_le (a b : Box ℚ) :
    (common a b).maxX - (common a b).minX ≤ a.maxX - a.minX ∧
      (common a b).maxY - (common a b).minY ≤ a.maxY - a.minY :=
  ⟨sub_le_sub (min_le_left _ _) (le_max_left _ _), sub_le_sub (min_le_left _ _) (le_max_left _ _)⟩

theorem area_common_le (a b : Box ℚ) : area (common a b) ≤ area a := by
  obtain ⟨hwidth, hheight⟩ := common_sides_le a b
  rw [area_eq, area_eq]
  exact mul_le_mul (max_le_max_right 0 hwidth) (max_le_max_right 0 hheight) (le_max_right _ _)
    (le_max_right _ _)

theorem area_common_le_right (a b : Box ℚ) : area (common a b) ≤ area b := by
  rw [common_comm]
  exact area_common_le b a

theorem intersects_iff : intersects a b = true ↔
    (a.minX ≤ b.maxX ∧ b.minX ≤ a.maxX) ∧ a.minY ≤ b.maxY ∧ b.minY ≤ a.maxY := by
  change (decide _ && decide _ && decide _ && decide _) = true ↔ _
  simp only [Bool.and_eq_true, decide_eq_true_eq, and_assoc]

theorem intersection_eq (a b : Box ℚ) :
    intersection a b = if intersects a b = true then some (common a b) else none :=
  rfl

theorem area_common_of_apart (h : intersects a b ≠ true) : area (common a b) = 0 := by
  have hgone {low high inner outer : ℚ} (hlow : low ≤ inner) (hhigh : outer ≤ high)
      (hlt : high < low) : max (outer - inner) 0 = 0 := max_eq_right (by linarith)
  rw [Ne, intersects_iff] at h
  simp only [not_and_or, not_le] at h
  rw [area_eq, mul_eq_zero]
  rcases h with (hx | hx) | hy | hy
  · exact .inl (hgone (le_max_left _ _) (min_le_right _ _) hx)
  · exact .inl (hgone (le_max_right _ _) (min_le_left _ _) hx)
  · exact .inr (hgone (le_max_left _ _) (min_le_right _ _) hy)
  · exact .inr (hgone (le_max_right _ _) (min_le_left _ _) hy)

theorem upright_common_iff (ha : a.Upright) (hb : b.Upright) :
    (common a b).Upright ↔ intersects a b = true := by
  rw [intersects_iff]
  simp only [Upright, common, max_le_iff, le_min_iff, ha.1, ha.2, hb.1, hb.2, true_and, and_true]
  tauto

theorem region_nonempty_iff : b.region.Nonempty ↔ b.Upright := by
  rw [region, Set.prod_nonempty_iff, Set.nonempty_Icc, Set.nonempty_Icc, Rat.cast_le, Rat.cast_le]
  rfl

/-! The overlap -/

def covered (a b : Box ℚ) : ℚ :=
  area a + area b - area (common a b)

theorem area_common_le_covered (a b : Box ℚ) : area (common a b) ≤ covered a b := by
  have hleft := area_common_le a b
  have hright := area_common_le_right a b
  rw [covered]
  linarith

theorem covered_comm (a b : Box ℚ) : covered a b = covered b a := by
  rw [covered, covered, common_comm, add_comm (area a)]

private theorem clampUnit_eq_self {x : ℚ} (hzero : 0 ≤ x) (hone : x ≤ 1) (quotient : ℚ → ℚ → ℚ) :
    @clampUnit ℚ (arithmetic quotient) x = x := by
  change (if (!decide (0 ≤ x) && decide (x ≤ 0)) = true then 0
    else if (!decide (x ≤ 1) && decide (1 ≤ x)) = true then 1 else x) = x
  rw [decide_eq_true hzero, decide_eq_true hone]
  rfl

/-- Whatever the quotients of zero, the overlap is the common area over the covered one, and zero if
no area is covered: the quotient is taken for a divisor above zero only. -/
theorem overlapWith_eq {quotient : ℚ → ℚ → ℚ} (h : ∀ x y, 0 < y → quotient x y = x / y)
    (a b : Box ℚ) : overlapWith quotient a b = area (common a b) / covered a b := by
  have hshared := area_nonneg (common a b)
  have hcovered := area_common_le_covered a b
  have hunfold : overlapWith quotient a b =
      if intersects a b = true then
        if decide (covered a b ≤ 0) = true then 0
        else @clampUnit ℚ (arithmetic quotient) (quotient (area (common a b)) (covered a b))
      else 0 := by
    unfold overlapWith Box.overlap
    by_cases hmeet : intersects a b = true
    · rw [if_pos hmeet]
      have hpart : @Box.intersection ℚ (arithmetic quotient) a b = some (common a b) := if_pos hmeet
      rw [hpart]
      rfl
    · rw [if_neg hmeet]
      have hpart : @Box.intersection ℚ (arithmetic quotient) a b = none := if_neg hmeet
      rw [hpart]
      rfl
  rw [hunfold]
  split
  · split
    next hnone =>
      rw [decide_eq_true_eq] at hnone
      rw [le_antisymm (hcovered.trans hnone) hshared, zero_div]
    next hsome =>
      rw [decide_eq_true_eq, not_le] at hsome
      rw [h _ _ hsome]
      exact clampUnit_eq_self (div_nonneg hshared hsome.le) ((div_le_one hsome).mpr hcovered) _
  next hapart => rw [area_common_of_apart hapart, zero_div]

theorem overlap_eq (a b : Box ℚ) : overlap a b = area (common a b) / covered a b :=
  overlapWith_eq (fun _ _ _ => rfl) a b

theorem overlap_comm (a b : Box ℚ) : overlap a b = overlap b a := by
  rw [overlap_eq, overlap_eq, common_comm, covered_comm]

theorem overlap_nonneg (a b : Box ℚ) : 0 ≤ overlap a b := by
  rw [overlap_eq]
  exact div_nonneg (area_nonneg _) ((area_nonneg _).trans (area_common_le_covered a b))

theorem overlap_le_one (a b : Box ℚ) : overlap a b ≤ 1 := by
  rw [overlap_eq]
  exact div_le_one_of_le₀ (area_common_le_covered a b)
    ((area_nonneg _).trans (area_common_le_covered a b))

theorem overlap_pos_iff : 0 < overlap a b ↔ 0 < area (common a b) := by
  rw [overlap_eq]
  constructor
  · intro h
    refine (area_nonneg _).lt_of_ne fun hzero => ?_
    rw [← hzero, zero_div] at h
    exact lt_irrefl 0 h
  · intro h
    exact div_pos h (h.trans_le (area_common_le_covered a b))

private theorem sides_pos (h : 0 < area b) : 0 < b.maxX - b.minX ∧ 0 < b.maxY - b.minY := by
  rw [area_eq] at h
  constructor
  · by_contra hflat
    rw [max_eq_right (not_lt.mp hflat), zero_mul] at h
    exact lt_irrefl 0 h
  · by_contra hflat
    rw [max_eq_right (not_lt.mp hflat), mul_zero] at h
    exact lt_irrefl 0 h

private theorem area_of_pos (h : 0 < area b) :
    area b = (b.maxX - b.minX) * (b.maxY - b.minY) := by
  obtain ⟨hwidth, hheight⟩ := sides_pos h
  rw [area_eq, max_eq_left hwidth.le, max_eq_left hheight.le]

private theorem within_of_length {low high lows highs : ℚ}
    (h : high - low ≤ min high highs - max low lows) : lows ≤ low ∧ high ≤ highs := by
  have hhigh := min_le_left high highs
  have hlow := le_max_left low lows
  exact ⟨(le_max_right low lows).trans (by linarith),
    le_trans (by linarith) (min_le_right high highs)⟩

private theorem within_of_area_common (hpos : 0 < area a) (h : area (common a b) = area a) :
    (b.minX ≤ a.minX ∧ a.maxX ≤ b.maxX) ∧ b.minY ≤ a.minY ∧ a.maxY ≤ b.maxY := by
  have hcommon : 0 < area (common a b) := h ▸ hpos
  obtain ⟨hwidth, hheight⟩ := sides_pos hpos
  obtain ⟨-, hcommonHeight⟩ := sides_pos hcommon
  obtain ⟨hnarrower, hlower⟩ := common_sides_le a b
  rw [area_of_pos hpos, area_of_pos hcommon] at h
  -- Were one side of the common part shorter, the product would be smaller.
  constructor
  · refine within_of_length (not_lt.mp fun hshort => ?_)
    exact (mul_lt_mul hshort hlower hcommonHeight hwidth.le).ne h
  · refine within_of_length (not_lt.mp fun hshort => ?_)
    exact (mul_lt_mul' hnarrower hshort hcommonHeight.le hwidth).ne h

theorem common_self (a : Box ℚ) : common a a = a := by
  simp only [common, max_self, min_self]

theorem overlap_eq_one_iff : overlap a b = 1 ↔ a = b ∧ 0 < area a := by
  have hleft := area_common_le a b
  have hright := area_common_le_right a b
  rw [overlap_eq]
  constructor
  · intro hone
    have hne : covered a b ≠ 0 := by
      intro hzero
      rw [hzero, div_zero] at hone
      exact zero_ne_one hone
    have hall : area (common a b) = covered a b := (div_eq_one_iff_eq hne).mp hone
    have hpos : 0 < covered a b := (hall ▸ area_nonneg (common a b)).lt_of_ne' hne
    rw [covered] at hall hpos
    have ha : area (common a b) = area a := by linarith
    have hb : area (common b a) = area b := by
      rw [common_comm]
      linarith
    obtain ⟨⟨hwest, heast⟩, hsouth, hnorth⟩ := within_of_area_common (by linarith) ha
    obtain ⟨⟨hwest', heast'⟩, hsouth', hnorth'⟩ := within_of_area_common (by linarith) hb
    have hsame : a = b := by
      cases a
      cases b
      simp only [Box.mk.injEq]
      exact ⟨le_antisymm hwest' hwest, le_antisymm hsouth' hsouth, le_antisymm heast heast',
        le_antisymm hnorth hnorth'⟩
    exact ⟨hsame, by linarith⟩
  · rintro ⟨rfl, hpos⟩
    rw [covered, common_self, add_sub_cancel_right, div_self hpos.ne']

/-! The laws of the overlap -/

/-- The overlap is symmetric, lies between zero and one, and needs the quotients by numbers above
zero only.  It is above zero for boxes with a common region that has an area, and one for a box with
an area and itself.  The intersection exists for boxes that meet, and of upright boxes it is the
greatest box inside both. -/
theorem overlap_measures (a b : Box ℚ) :
    overlap a b = overlap b a ∧ 0 ≤ overlap a b ∧ overlap a b ≤ 1 ∧
      (∀ quotient : ℚ → ℚ → ℚ, (∀ x y, 0 < y → quotient x y = x / y) →
        overlapWith quotient a b = overlap a b) ∧
      (0 < overlap a b ↔ 0 < volume (a.region ∩ b.region)) ∧
      (overlap a b = 1 ↔ a = b ∧ 0 < volume a.region) ∧
      (intersection a b).isSome = intersects a b ∧
      (a.Upright → b.Upright →
        (intersects a b = true ↔ (a.region ∩ b.region).Nonempty) ∧
        ∀ shared, intersection a b = some shared →
          shared.Upright ∧ shared.region ⊆ a.region ∧ shared.region ⊆ b.region ∧
            ∀ e : Box ℚ, e.Upright → e.region ⊆ a.region → e.region ⊆ b.region →
              e.region ⊆ shared.region) := by
  refine ⟨overlap_comm a b, overlap_nonneg a b, overlap_le_one a b, ?_, ?_, ?_, ?_, ?_⟩
  · intro quotient hquotient
    rw [overlapWith_eq hquotient, overlap_eq]
  · rw [overlap_pos_iff, ← region_common, volume_region_pos]
  · rw [overlap_eq_one_iff, volume_region_pos]
  · rw [intersection_eq]
    cases intersects a b <;> rfl
  · intro ha hb
    refine ⟨?_, fun shared hshared => ?_⟩
    · rw [← upright_common_iff ha hb, ← region_common, region_nonempty_iff]
    · rw [intersection_eq] at hshared
      split at hshared
      next hmeet =>
        obtain rfl := Option.some_inj.mp hshared
        rw [region_common]
        exact ⟨(upright_common_iff ha hb).mpr hmeet, Set.inter_subset_left, Set.inter_subset_right,
          fun e _ hea heb => Set.subset_inter hea heb⟩
      next => cases hshared

end Exact

end Gazetteer.Box
