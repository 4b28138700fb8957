import Mathlib
import Gazetteer.Catalog.Search
import Gazetteer.Proofs.Store.Cell
/-!
Buckets: how often each value occurs, and the two orders in which the buckets of a facet stand.
-/

namespace Gazetteer

namespace Bucket

/-- Frequent values come first, values of one frequency in ascending order. -/
def CountsBefore (a b : Bucket) : Prop :=
  b.count < a.count ∨ a.count = b.count ∧ a.value < b.value

/-- Numbers come first in ascending order, then what is no number; values that stand for one number
or for none come in ascending order. -/
def TimesBefore (a b : Bucket) : Prop :=
  match (Cell.text a.value).number?, (Cell.text b.value).number? with
  | some x, some y => x < y ∨ (x == y) = true ∧ a.value < b.value
  | some _, none => True
  | none, some _ => False
  | none, none => a.value < b.value

def Precedes (config : Config) (field : String) : Bucket → Bucket → Prop :=
  if field = config.timelineField then TimesBefore else CountsBefore

def entry (b : Bucket) : Cell × Nat :=
  (.text b.value, b.count)

end Bucket

/-! Orders -/

/-- Only one list of given members stands in a strict order. -/
theorem eq_of_pairwise_asymm {α : Type} {before : α → α → Prop}
    (hasymm : ∀ {a b}, before a b → ¬before b a) {first second : List α}
    (hmem : ∀ a, a ∈ first ↔ a ∈ second) (hfirst : first.Pairwise before)
    (hsecond : second.Pairwise before) : first = second := by
  have hnodup {l : List α} (hl : l.Pairwise before) : l.Nodup := by
    refine hl.imp fun {a b} hab heq => ?_
    subst heq
    exact hasymm hab hab
  have hperm := (List.perm_ext_iff_of_nodup (hnodup hfirst) (hnodup hsecond)).mpr hmem
  exact hperm.eq_of_pairwise (fun _ _ _ _ hab hba => absurd hba (hasymm hab)) hfirst hsecond

theorem transCmp_on {α β : Type} (f : α → β) (cmp : β → β → Ordering) [Std.TransCmp cmp] :
    Std.TransCmp fun a b => cmp (f a) (f b) :=
  { eq_swap := (inferInstance : Std.OrientedCmp cmp).eq_swap
    isLE_trans := (inferInstance : Std.TransCmp cmp).isLE_trans }

section

variable {α : Type} (cmp : α → α → Ordering) [Std.TransCmp cmp]

theorem ne_gt_trans (a b c : α) (hab : (cmp a b != .gt) = true) (hbc : (cmp b c != .gt) = true) :
    (cmp a c != .gt) = true := by
  have hle (o : Ordering) : (o != .gt) = o.isLE := by cases o <;> rfl
  rw [hle] at *
  exact Std.TransCmp.isLE_trans hab hbc

theorem ne_gt_total (a b : α) : (cmp a b != .gt || cmp b a != .gt) = true := by
  have hswap : cmp b a = (cmp a b).swap := Std.OrientedCmp.eq_swap
  rw [hswap]
  cases cmp a b <;> rfl

end

namespace Database

private theorem compareCounts_eq : compareCounts =
    compareLex (fun a b => compareOn Prod.snd b a) (fun a b => Cell.compare .binary a.1 b.1) := rfl

instance : Std.TransCmp compareCounts := by
  have hcounts : Std.TransCmp fun a b : Cell × Nat => compareOn Prod.snd b a :=
    Std.TransCmp.opposite
  have hvalues := transCmp_on (fun a : Cell × Nat => a.1) (Cell.compare .binary)
  rw [compareCounts_eq]
  infer_instance

private theorem compareValues_eq : SortKey.compareValues true .ascending =
    compareLex (compareOn Cell.isNull) (Cell.compare .binary) := by
  funext a b
  cases a <;> cases b <;> rfl

private theorem compareTimes_eq : compareTimes =
    compareLex (fun a b => SortKey.compareValues true .ascending (SortKey.keyCell true a.1)
      (SortKey.keyCell true b.1)) (fun a b => Cell.compare .binary a.1 b.1) := rfl

instance : Std.TransCmp compareTimes := by
  have hnumbers := transCmp_on (fun a : Cell × Nat => SortKey.keyCell true a.1)
    (compareLex (compareOn Cell.isNull) (Cell.compare .binary))
  have hvalues := transCmp_on (fun a : Cell × Nat => a.1) (Cell.compare .binary)
  rw [compareTimes_eq, compareValues_eq]
  infer_instance

theorem compareCounts_entry {a b : Bucket} :
    compareCounts a.entry b.entry = .lt ↔ a.CountsBefore b := by
  rw [compareCounts, Ordering.then_eq_lt, compareOn, Nat.compare_eq_lt, Nat.compare_eq_eq]
  simp only [Bucket.entry, Cell.compare_text, Bucket.CountsBefore]
  exact or_congr Iff.rfl (and_congr eq_comm Iff.rfl)

theorem compareTimes_entry {a b : Bucket} :
    compareTimes a.entry b.entry = .lt ↔ a.TimesBefore b := by
  rw [compareTimes, Ordering.then_eq_lt]
  simp only [Bucket.entry, Cell.compare_text, SortKey.keyCell, if_true, Bucket.TimesBefore]
  have hnull : Cell.ofFloat? none = .null := rfl
  cases ha : (Cell.text a.value).number? with
  | none =>
      cases hb : (Cell.text b.value).number? with
      | none =>
          have heq : SortKey.compareValues true .ascending .null .null = .eq := rfl
          simp only [hnull, heq, reduceCtorEq, false_or, true_and]
      | some y =>
          have hgt : SortKey.compareValues true .ascending .null (.real y) = .gt := rfl
          have hy := Cell.ofFloat?_of_isFinite (Cell.isFinite_of_number?_text hb)
          simp only [hnull, hy, hgt, reduceCtorEq, false_or, false_and]
  | some x =>
      have hfinite := Cell.isFinite_of_number?_text ha
      have hx := Cell.ofFloat?_of_isFinite hfinite
      cases hb : (Cell.text b.value).number? with
      | none =>
          have hlt : SortKey.compareValues true .ascending (.real x) .null = .lt := rfl
          simp only [hnull, hx, hlt, true_or]
      | some y =>
          have hfinite' := Cell.isFinite_of_number?_text hb
          have hy := Cell.ofFloat?_of_isFinite hfinite'
          have hcompare : SortKey.compareValues true .ascending (.real x) (.real y) =
              compare (Number.scaled x) (Number.scaled y) := Cell.compare_real
          simp only [hx, hy, hcompare, Int.compare_eq_lt, Std.compare_eq_iff_eq,
            Number.lt_iff_scaled (Number.isNaN_of_isFinite hfinite)
              (Number.isNaN_of_isFinite hfinite'),
            Number.beq_iff_scaled (Number.isNaN_of_isFinite hfinite)
              (Number.isNaN_of_isFinite hfinite')]

/-- Sorted buckets, of which no two have one value and tie. -/
private theorem sort_entries {cmp : Cell × Nat → Cell × Nat → Ordering} [Std.TransCmp cmp]
    (htie : ∀ a b : Bucket, cmp a.entry b.entry = .eq → a.value = b.value) {counted : List Bucket}
    (hnodup : (counted.map Bucket.value).Nodup) :
    ∃ all : List Bucket,
      (counted.map Bucket.entry).mergeSort (fun a b => cmp a b != .gt) = all.map Bucket.entry ∧
        all.Perm counted ∧ all.Pairwise fun a b => cmp a.entry b.entry = .lt := by
  let le (a b : Bucket) : Bool := cmp a.entry b.entry != .gt
  have hperm : (counted.mergeSort le).Perm counted := List.mergeSort_perm counted le
  have hentries : (counted.map Bucket.entry).mergeSort (fun a b => cmp a b != .gt) =
      (counted.mergeSort le).map Bucket.entry :=
    (List.map_mergeSort (f := Bucket.entry) fun a _ b _ => rfl).symm
  refine ⟨counted.mergeSort le, hentries, hperm, ?_⟩
  have hsorted : (counted.mergeSort le).Pairwise fun a b => le a b = true :=
    List.pairwise_mergeSort (fun a b c => ne_gt_trans cmp a.entry b.entry c.entry)
      (fun a b => ne_gt_total cmp a.entry b.entry) counted
  have hdistinct : (counted.mergeSort le).Pairwise fun a b => a.value ≠ b.value :=
    List.pairwise_map.mp ((hperm.map Bucket.value).nodup_iff.mpr hnodup)
  refine (hsorted.and hdistinct).imp fun {a b} ⟨hle, hne⟩ => ?_
  cases hcmp : cmp a.entry b.entry with
  | lt => rfl
  | eq => exact absurd (htie a b hcmp) hne
  | gt => exact absurd hcmp (bne_iff_ne.mp hle)

private theorem value_eq_of_compare_eq {a b : Bucket}
    (h : Cell.compare .binary a.entry.1 b.entry.1 = .eq) : a.value = b.value :=
  Cell.compare_text_eq.mp h

theorem sort_buckets (config : Config) (field : String) {counted : List Bucket}
    (hnodup : (counted.map Bucket.value).Nodup) :
    ∃ all : List Bucket,
      (counted.map Bucket.entry).mergeSort (fun a b =>
        (if field == config.timelineField then compareTimes else compareCounts) a b != .gt) =
          all.map Bucket.entry ∧
        all.Perm counted ∧ all.Pairwise (Bucket.Precedes config field) := by
  rw [Bucket.Precedes]
  by_cases hfield : field = config.timelineField
  · have htie (a b : Bucket) (h : compareTimes a.entry b.entry = .eq) : a.value = b.value :=
      value_eq_of_compare_eq (Ordering.then_eq_eq.mp h).2
    obtain ⟨all, hsort, hperm, hbefore⟩ := sort_entries htie hnodup
    simp only [hfield, BEq.rfl, if_true]
    exact ⟨all, hsort, hperm, hbefore.imp compareTimes_entry.mp⟩
  · have htie (a b : Bucket) (h : compareCounts a.entry b.entry = .eq) : a.value = b.value :=
      value_eq_of_compare_eq (Ordering.then_eq_eq.mp h).2
    obtain ⟨all, hsort, hperm, hbefore⟩ := sort_entries htie hnodup
    simp only [beq_false_of_ne hfield, hfield, Bool.false_eq_true, if_false]
    exact ⟨all, hsort, hperm, hbefore.imp compareCounts_entry.mp⟩

theorem precedes_asymm {config : Config} {field : String} {a b : Bucket}
    (hab : Bucket.Precedes config field a b) : ¬Bucket.Precedes config field b a := by
  simp only [Bucket.Precedes] at *
  split at hab
  next htimeline =>
    rw [if_pos htimeline, ← compareTimes_entry]
    exact Std.OrientedCmp.not_lt_of_lt (compareTimes_entry.mpr hab)
  next htimeline =>
    rw [if_neg htimeline, ← compareCounts_entry]
    exact Std.OrientedCmp.not_lt_of_lt (compareCounts_entry.mpr hab)

def occurrence (entry : String × String) : Occurrence :=
  (.text entry.1, .text entry.2)

private theorem distinct_ids (entries : List (String × String)) (v : String) :
    ∃ ids : List String, ids.Nodup ∧ (∀ id, id ∈ ids ↔ (v, id) ∈ entries) ∧
      (Cell.distinct ((((entries.map occurrence).filter fun entry =>
        (Cell.text v).same entry.1).map Prod.snd).filter fun id => !id.isNull)).length =
          ids.length := by
  obtain ⟨ids, hids, hnodup, hmem⟩ :=
    Cell.distinct_texts ((entries.filter fun entry => v == entry.1).map Prod.snd)
  refine ⟨ids, hnodup, fun id => ?_, ?_⟩
  · rw [hmem, List.mem_map]
    constructor
    · rintro ⟨entry, hentry, rfl⟩
      obtain ⟨hentry, hv⟩ := List.mem_filter.mp hentry
      rw [beq_iff_eq] at hv
      exact hv ▸ hentry
    · intro hentry
      exact ⟨(v, id), List.mem_filter.mpr ⟨hentry, BEq.rfl⟩, rfl⟩
  · have hcells : (((entries.map occurrence).filter fun entry =>
        (Cell.text v).same entry.1).map Prod.snd).filter (fun id => !id.isNull) =
          ((entries.filter fun entry => v == entry.1).map Prod.snd).map Cell.text := by
      have htext : ((entries.map occurrence).filter fun entry =>
          (Cell.text v).same entry.1).map Prod.snd =
            ((entries.filter fun entry => v == entry.1).map Prod.snd).map Cell.text := by
        simp only [List.filter_map, List.map_map, Function.comp_def, occurrence, Cell.same_text]
      rw [htext]
      refine List.filter_eq_self.mpr fun id hid => ?_
      obtain ⟨s, -, rfl⟩ := List.mem_map.mp hid
      rfl
    rw [hcells, hids, List.length_map]

/-- A tally counts each value once, and with it the different ids. -/
theorem tally_occurrences (entries : List (String × String)) :
    ∃ counted : List Bucket, tally (entries.map occurrence) = counted.map Bucket.entry ∧
      (counted.map Bucket.value).Nodup ∧
      (∀ v id, (v, id) ∈ entries → v ∈ counted.map Bucket.value) ∧
      ∀ b ∈ counted, (∃ id, (b.value, id) ∈ entries) ∧ ∃ ids : List String, ids.Nodup ∧
        (∀ id, id ∈ ids ↔ (b.value, id) ∈ entries) ∧ b.count = ids.length := by
  obtain ⟨values, hvalues, hnodup, hmem⟩ := Cell.distinct_texts (entries.map Prod.fst)
  let count (v : String) : Nat :=
    (Cell.distinct ((((entries.map occurrence).filter fun entry =>
      (Cell.text v).same entry.1).map Prod.snd).filter fun id => !id.isNull)).length
  have hread : (values.map fun v => Bucket.mk v (count v)).map Bucket.value = values := by
    rw [List.map_map]
    exact List.map_id' values
  refine ⟨values.map fun v => ⟨v, count v⟩, ?_, ?_, fun v id hentry => ?_, fun b hb => ?_⟩
  · have hfirst : (entries.map occurrence).map Prod.fst =
        (entries.map Prod.fst).map Cell.text := by
      simp only [List.map_map, Function.comp_def, occurrence]
    rw [tally, hfirst, hvalues, List.map_map, List.map_map]
    rfl
  · rwa [hread]
  · rw [hread, hmem]
    exact List.mem_map_of_mem hentry
  · obtain ⟨v, hv, rfl⟩ := List.mem_map.mp hb
    obtain ⟨entry, hentry, rfl⟩ := List.mem_map.mp ((hmem v).mp hv)
    exact ⟨⟨entry.2, hentry⟩, distinct_ids entries entry.1⟩

end Database

end Gazetteer
