import Mathlib
import Gazetteer.Proofs.Dict
import Gazetteer.Store.Table
/-!
Cells as columns keep them, and the cells of rows that gained columns or were updated.
-/

namespace Gazetteer

/-! Cells as they are stored -/

namespace Cell

theorem equals_comm (a b : Cell) : a.equals b = b.equals a := by
  rw [equals, equals, same, same, Bool.and_comm (!a.isNull), Bool.beq_comm]

def IsNumber : Cell → Prop
  | .int _ => True
  | .real _ => True
  | _ => False

private theorem isNumber_ofWhole (x : Float) : (ofWhole x).IsNumber := by
  rw [ofWhole]
  split
  · split <;> trivial
  · trivial

private theorem ofNumericText_cases (s : String) :
    ofNumericText s = .text s ∨ (ofNumericText s).IsNumber := by
  rw [ofNumericText]
  split
  · exact Or.inl rfl
  next n _ =>
    refine Or.inr ?_
    generalize (if n.negative then -(n.digits : Int) else n.digits) = exact
    change (if (n.whole && isWord exact) = true then int exact else ofWhole n.toFloat).IsNumber
    split
    · trivial
    · exact isNumber_ofWhole n.toFloat

private theorem IsNumber.isNull {c : Cell} (h : c.IsNumber) : c.isNull = false := by
  cases c with
  | null => exact h.elim
  | _ => rfl

theorem IsNumber.ne_text {c : Cell} (h : c.IsNumber) (s : String) : c ≠ .text s := by
  rintro rfl
  exact h

private theorem store_real_text (s : String) :
    ofNumericText s = .text s ∧ (text s).store .real = .text s ∨
      (ofNumericText s).IsNumber ∧ ((text s).store .real).IsNumber := by
  rcases ofNumericText_cases s with h | h
  · exact Or.inl ⟨h, by simp only [store, h]⟩
  · refine Or.inr ⟨h, ?_⟩
    simp only [store]
    cases hnumber : ofNumericText s with
    | int n => trivial
    | real x => trivial
    | null => exact (hnumber ▸ h : Cell.null.IsNumber).elim
    | text t => exact (hnumber ▸ h : (Cell.text t).IsNumber).elim
    | blob b => exact (hnumber ▸ h : (Cell.blob b).IsNumber).elim

/-- Text becomes a number, or is kept and looks like none. -/
theorem store_text_cases (affinity : Affinity) (s : String) :
    ((text s).store affinity = .text s ∧ (text s).against affinity = .text s) ∨
      ((text s).store affinity).IsNumber := by
  cases affinity with
  | none => exact Or.inl ⟨rfl, rfl⟩
  | text => exact Or.inl ⟨rfl, rfl⟩
  | numeric => exact (ofNumericText_cases s).imp_left fun h => ⟨h, h⟩
  | integer => exact (ofNumericText_cases s).imp_left fun h => ⟨h, h⟩
  | real => exact (store_real_text s).imp (fun h => ⟨h.2, h.1⟩) And.right

theorem against_text_cases (affinity : Affinity) (s : String) :
    (text s).against affinity = .text s ∨ ((text s).against affinity).IsNumber := by
  cases affinity with
  | none => exact Or.inl rfl
  | text => exact Or.inl rfl
  | numeric => exact ofNumericText_cases s
  | integer => exact ofNumericText_cases s
  | real => exact ofNumericText_cases s

theorem isNull_iff {c : Cell} : c.isNull = true ↔ c = .null := by
  cases c <;> simp [isNull]

theorem isNull_store (affinity : Affinity) (c : Cell) : (c.store affinity).isNull = c.isNull := by
  cases c with
  | text s =>
      rcases store_text_cases affinity s with h | h
      · rw [h.1]
      · exact h.isNull
  | real x =>
      cases affinity with
      | none => rfl
      | text => rfl
      | numeric => exact (isNumber_ofWhole x).isNull
      | integer => exact (isNumber_ofWhole x).isNull
      | real =>
          simp only [store]
          split <;> rfl
  | null => cases affinity <;> rfl
  | int n => cases affinity <;> rfl
  | blob b => cases affinity <;> rfl

theorem store_of_store_eq_text {affinity : Affinity} {c : Cell} {s : String}
    (h : c.store affinity = .text s) : (text s).store affinity = .text s := by
  rcases store_text_cases affinity s with hs | hs
  · exact hs.1
  · exfalso
    cases c with
    | text t =>
        rcases store_text_cases affinity t with ht | ht
        · rw [ht.1, Cell.text.injEq] at h
          subst h
          exact hs.ne_text t ht.1
        · exact ht.ne_text s h
    | real x =>
        cases affinity with
        | none => cases h
        | text => exact hs
        | numeric => exact (isNumber_ofWhole x).ne_text s h
        | integer => exact (isNumber_ofWhole x).ne_text s h
        | real =>
            simp only [store] at h
            split at h <;> cases h
    | null => cases affinity <;> cases h
    | int n =>
        cases affinity with
        | text => exact hs
        | _ => cases h
    | blob b => cases affinity <;> cases h

/-- Text that a column keeps is compared with the column as it is. -/
theorem against_of_store {affinity : Affinity} {s : String}
    (h : (text s).store affinity = .text s) : (text s).against affinity = .text s := by
  rcases store_text_cases affinity s with hs | hs
  · exact hs.2
  · exact absurd h (hs.ne_text s)

end Cell

/-! Rows -/

namespace Row

theorem cell_congr (r : Row) {a b : String} (h : Text.fold a = Text.fold b) :
    r.cell a = r.cell b := by
  rw [cell, cell, h]

def ofColumns (added : List Column) : List (String × Cell) :=
  added.map fun c => (Text.fold c.name, c.fallback.store c.affinity)

def extend (r : Row) (added : List Column) : Row :=
  ⟨r.cells ++ ofColumns added⟩

theorem extend_extend (r : Row) (first second : List Column) :
    (r.extend first).extend second = r.extend (first ++ second) := by
  simp only [extend, ofColumns, List.map_append, List.append_assoc]

/-- Whether a row has a cell under a column name, be it null. -/
def Lists (r : Row) (column : String) : Prop :=
  Text.fold column ∈ r.cells.map Prod.fst

theorem cell_of_not_lists {r : Row} {column : String} (h : ¬r.Lists column) :
    r.cell column = .null := by
  rw [cell, findEntry_eq_none_iff.mpr h, Option.getD_none]

theorem lists_of_ne_null {r : Row} {column : String} (h : r.cell column ≠ .null) :
    r.Lists column := by
  by_contra hnot
  exact h (cell_of_not_lists hnot)

theorem cell_extend_of_lists {r : Row} {column : String} (h : r.Lists column)
    (added : List Column) : (r.extend added).cell column = r.cell column := by
  cases hfind : findEntry (Text.fold column) r.cells with
  | none => exact absurd h (findEntry_eq_none_iff.mp hfind)
  | some c => rw [cell, cell, extend, findEntry_append, hfind, Option.some_or]

theorem cell_extend_of_not_lists {r : Row} {column : String} (h : ¬r.Lists column)
    (added : List Column) :
    (r.extend added).cell column = (⟨ofColumns added⟩ : Row).cell column := by
  rw [cell, cell, extend, findEntry_append, findEntry_eq_none_iff.mpr h, Option.none_or]

/-- Columns whose fallback is null change no cell, since a column that is missing is read as
null. -/
theorem cell_extend_of_null (r : Row) (column : String) {added : List Column}
    (hadded : ∀ c ∈ added, c.fallback = .null) : (r.extend added).cell column = r.cell column := by
  by_cases h : r.Lists column
  · exact cell_extend_of_lists h added
  · rw [cell_extend_of_not_lists h, cell_of_not_lists h, cell]
    induction added with
    | nil => rfl
    | cons c rest ih =>
        have hc : c.fallback.store c.affinity = .null := by
          rw [hadded c List.mem_cons_self]
          cases c.affinity <;> rfl
        rw [ofColumns, List.map_cons, findEntry_cons, hc]
        split
        · rfl
        · exact ih fun other hother => hadded other (List.mem_cons_of_mem _ hother)

def ofChanges (changes : List (String × Cell)) : List (String × Cell) :=
  changes.map fun change => (Text.fold change.1, change.2)

theorem cell_update (r : Row) (changes : List (String × Cell)) (column : String) :
    (r.update changes).cell column =
      (findEntry (Text.fold column) (ofChanges changes)).getD (r.cell column) := by
  have hold : findEntry (Text.fold column)
      (r.cells.map fun entry => (entry.1, (findEntry entry.1 (ofChanges changes)).getD entry.2)) =
        (findEntry (Text.fold column) r.cells).map fun c =>
          (findEntry (Text.fold column) (ofChanges changes)).getD c := by
    induction r.cells with
    | nil => rfl
    | cons entry rest ih =>
        rw [List.map_cons, findEntry_cons, findEntry_cons, ih]
        by_cases hname : entry.1 = Text.fold column <;> simp [hname]
  have hnew := findEntry_filter (fun name => !r.cells.any fun entry => entry.1 == name)
    (Text.fold column) (ofChanges changes)
  rw [ofChanges] at hold hnew
  rw [cell, update, findEntry_append, hold, hnew, cell, ofChanges]
  cases hfind : findEntry (Text.fold column) r.cells with
  | some c => rfl
  | none =>
      have hlacks : (!r.cells.any fun entry => entry.1 == Text.fold column) = true := by
        rw [Bool.not_eq_true', List.any_eq_false]
        intro entry hentry
        have hnone := findEntry_eq_none_iff.mp hfind
        simpa using fun heq : entry.1 = Text.fold column => hnone (heq ▸ List.mem_map_of_mem hentry)
      rw [if_pos hlacks]
      rfl

theorem names_update {r : Row} {changes : List (String × Cell)}
    (h : ∀ change ∈ changes, r.Lists change.1) :
    (r.update changes).cells.map Prod.fst = r.cells.map Prod.fst := by
  have hnone : (ofChanges changes).filter (fun change =>
      !r.cells.any fun entry => entry.1 == change.1) = [] := by
    rw [List.filter_eq_nil_iff]
    intro change hchange
    obtain ⟨given, hgiven, rfl⟩ := List.mem_map.mp hchange
    obtain ⟨entry, hentry, hname⟩ := List.mem_map.mp (h given hgiven)
    rw [Bool.not_eq_true, Bool.not_eq_false', List.any_eq_true]
    exact ⟨entry, hentry, beq_iff_eq.mpr hname⟩
  rw [ofChanges] at hnone
  rw [update, hnone, List.append_nil, List.map_map]
  rfl

end Row

end Gazetteer
