import Mathlib
import Gazetteer.Proofs.Number.Order
import Gazetteer.Store.Order
/-!
The order of cells: a total preorder in which texts stand as strings do, and numbers as the doubles
that they are.
-/

namespace Gazetteer

namespace Rank

instance : Std.TransCmp compare := by
  unfold compare
  infer_instance

theorem compare_eq_eq {a b : Rank} : a.compare b = .eq ↔ a = b := by
  simp only [compare, compareLex, Ordering.then_eq_eq, compareOn, Std.compare_eq_iff_eq]
  cases a
  cases b
  simp

end Rank

namespace Cell

instance (collation : Collation) : Std.TransCmp (compare collation) where
  eq_swap := (inferInstance : Std.OrientedCmp Rank.compare).eq_swap
  isLE_trans := (inferInstance : Std.TransCmp Rank.compare).isLE_trans

/-! Texts -/

private theorem map_toNat_injective {a b : String}
    (h : a.toList.map Char.toNat = b.toList.map Char.toNat) : a = b := by
  refine String.toList_inj.mp (List.map_injective_iff.mpr (fun c d hcd => ?_) h)
  exact Char.ext (UInt32.toNat_inj.mp hcd)

@[simp] theorem same_text (a b : String) : (text a).same (text b) = (a == b) := by
  rw [Bool.eq_iff_iff, same, beq_iff_eq, beq_iff_eq]
  constructor
  · intro h
    exact map_toNat_injective (congrArg Rank.units h)
  · rintro rfl
    rfl

@[simp] theorem equals_text (a b : String) : (text a).equals (text b) = (a == b) := by
  simp [equals, isNull]

theorem equals_text_iff {c : Cell} {s : String} : c.equals (text s) = true ↔ c = text s := by
  constructor
  · intro h
    rw [equals, Bool.and_eq_true] at h
    have hrank : c.rank .binary = (text s).rank .binary := beq_iff_eq.mp h.2
    have hkind : (c.rank .binary).kind = 2 := congrArg Rank.kind hrank
    cases c with
    | text t => rw [map_toNat_injective (congrArg Rank.units hrank)]
    | null => cases hkind
    | int n => cases hkind
    | real x => cases hkind
    | blob b => cases hkind
  · rintro rfl
    rw [equals_text, beq_self_eq_true]

theorem string?_eq_some {c : Cell} {s : String} : c.string? = some s ↔ c = text s := by
  cases c <;> simp [string?]

@[simp] theorem equals_null_left (c : Cell) : Cell.null.equals c = false := by
  simp [equals, isNull]

private theorem lt_of_map_lt {a b : List Char} :
    a.map Char.toNat < b.map Char.toNat ↔ a < b := by
  induction a generalizing b with
  | nil => cases b <;> simp
  | cons c cs ih =>
      cases b with
      | nil => simp
      | cons d ds =>
          have hlt : c.toNat < d.toNat ↔ c < d := Iff.rfl
          have heq : c.toNat = d.toNat ↔ c = d :=
            ⟨fun h => Char.ext (UInt32.toNat_inj.mp h), congrArg Char.toNat⟩
          rw [List.map_cons, List.map_cons, List.cons_lt_cons_iff, List.cons_lt_cons_iff, ih, hlt,
            heq]

private theorem compare_nats {a b : List Nat} : Ord.compare a b = .lt ↔ a < b := by
  change List.compareLex Ord.compare a b = .lt ↔ a < b
  induction a generalizing b with
  | nil => cases b <;> simp [List.compareLex]
  | cons x xs ih =>
      cases b with
      | nil => simp [List.compareLex]
      | cons y ys =>
          rw [List.compareLex_cons_cons, Ordering.then_eq_lt, ih, List.cons_lt_cons_iff,
            Nat.compare_eq_lt, Nat.compare_eq_eq]

theorem compare_text {a b : String} : compare .binary (text a) (text b) = .lt ↔ a < b := by
  rw [String.lt_iff, ← lt_of_map_lt, ← compare_nats]
  simp [compare, rank, Rank.compare, compareLex, compareOn]

theorem compare_text_eq {a b : String} : compare .binary (text a) (text b) = .eq ↔ a = b := by
  rw [compare, Rank.compare_eq_eq]
  constructor
  · intro h
    exact map_toNat_injective (congrArg Rank.units h)
  · rintro rfl
    rfl

theorem distinct_texts (texts : List String) :
    ∃ kept : List String, distinct (texts.map text) = kept.map text ∧ kept.Nodup ∧
      ∀ s, s ∈ kept ↔ s ∈ texts := by
  induction texts with
  | nil => exact ⟨[], rfl, List.nodup_nil, fun s => Iff.rfl⟩
  | cons first rest ih =>
      obtain ⟨kept, hkept, hnodup, hmem⟩ := ih
      refine ⟨first :: kept.filter fun s => !first == s, ?_, ?_, fun s => ?_⟩
      · simp only [List.map_cons, distinct, hkept, List.filter_map, Function.comp_def, same_text]
      · exact List.nodup_cons.mpr ⟨by simp, hnodup.filter _⟩
      · rw [List.mem_cons, List.mem_cons, List.mem_filter, hmem]
        by_cases hs : s = first
        · simp [hs]
        · simp [hs, Ne.symm hs]

/-! Numbers -/

theorem compare_real {x y : Float} :
    compare .binary (real x) (real y) = Ord.compare (Number.scaled x) (Number.scaled y) := by
  simp [compare, rank, Rank.compare, compareLex, compareOn]

theorem compare_int (m n : Int) : compare .binary (int m) (int n) = Ord.compare m n := by
  have hpos : (0 : Int) < 2 ^ 1074 := pow_pos (by decide) 1074
  have hscale : Ord.compare (m * 2 ^ 1074) (n * 2 ^ 1074) = Ord.compare m n := by
    rcases lt_trichotomy m n with h | rfl | h
    · rw [Int.compare_eq_lt.mpr h, Int.compare_eq_lt.mpr (Int.mul_lt_mul_of_pos_right h hpos)]
    · rw [Std.compare_self, Std.compare_self]
    · rw [Int.compare_eq_gt.mpr h, Int.compare_eq_gt.mpr (Int.mul_lt_mul_of_pos_right h hpos)]
  simp only [compare, rank, Rank.compare, compareLex, compareOn, hscale, Std.compare_self,
    Ordering.then_eq, Ordering.eq_then]

theorem ofFloat?_of_isNaN {x : Float} (h : x.isNaN = true) : ofFloat? (some x) = null :=
  if_pos h

theorem ofFloat?_of_number {x : Float} (h : x.isNaN = false) : ofFloat? (some x) = real x := by
  rw [ofFloat?, h]
  rfl

theorem atMost_ofFloat? (x y : Float) :
    (ofFloat? (some x)).atMost (ofFloat? (some y)) = decide (x ≤ y) := by
  cases hx : x.isNaN with
  | true => simp [ofFloat?_of_isNaN hx, atMost, isNull, Number.not_le_of_isNaN (Or.inl hx)]
  | false =>
      cases hy : y.isNaN with
      | true => simp [ofFloat?_of_isNaN hy, atMost, isNull, Number.not_le_of_isNaN (Or.inr hy)]
      | false =>
          rw [ofFloat?_of_number hx, ofFloat?_of_number hy, Bool.eq_iff_iff, decide_eq_true_eq,
            Number.le_iff_scaled hx hy]
          simp [atMost, isNull, compare_real, Int.compare_ne_gt]

theorem isFinite_of_number?_text {s : String} {x : Float} (h : (text s).number? = some x) :
    Number.isFinite x = true := by
  change Number.finite? _ = some x at h
  obtain ⟨n, -, hn⟩ := Option.bind_eq_some_iff.mp h
  dsimp only at hn
  split at hn
  next hfinite => exact Option.some_inj.mp hn ▸ hfinite
  next => cases hn

theorem ofFloat?_of_isFinite {x : Float} (h : Number.isFinite x = true) :
    ofFloat? (some x) = real x :=
  ofFloat?_of_number (Number.isNaN_of_isFinite h)

end Cell

end Gazetteer
