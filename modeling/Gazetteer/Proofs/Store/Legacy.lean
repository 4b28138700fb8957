import Mathlib
import Gazetteer.Proofs.Store.Database
import Gazetteer.Store.Legacy
/-!
Databases given by their tables are consistent: inserted rows have what the columns ask for and
break no constraint, and an index is not added to rows that do.
-/

namespace Gazetteer

namespace Table

variable {t u : Table} {r : Row}

/-! Inserted rows -/

theorem place_perm (t : Table) (r : Row) : (t.place r).Perm (r :: t.rows) := by
  rw [place]
  split
  · exact List.perm_append_singleton r t.rows
  next column =>
    dsimp only
    rw [List.append_assoc, List.singleton_append]
    exact List.perm_middle.trans ((List.filter_append_perm _ t.rows).cons r)

/-- What an insertion makes of a table: nothing, or one more row that breaks no constraint. -/
theorem insert_eq_ok {conflict : Conflict} {values : List (String × Cell)} {taken : Bool}
    (h : t.insert conflict values = .ok (u, taken)) :
    u = t ∨ ∃ r, t.fillRowKey (t.newRow values) = .ok r ∧ t.missing? r = none ∧
      t.collision? t.rows r = none ∧ u = { t with rows := t.place r } := by
  obtain ⟨-, -, h⟩ := bind_eq_ok.mp h
  obtain ⟨-, -, h⟩ := bind_eq_ok.mp h
  obtain ⟨r, hr, h⟩ := bind_eq_ok.mp h
  obtain ⟨-, -, h⟩ := bind_eq_ok.mp h
  cases hmissing : t.missing? r with
  | some fault =>
      rw [hmissing] at h
      cases conflict with
      | abort => cases h
      | ignore =>
          cases h
          exact Or.inl rfl
  | none =>
      rw [hmissing] at h
      cases hcollision : t.collision? t.rows r with
      | some i =>
          rw [hcollision] at h
          cases conflict with
          | abort => cases h
          | ignore =>
              cases h
              exact Or.inl rfl
      | none =>
          rw [hcollision] at h
          cases h
          exact Or.inr ⟨r, hr, hmissing, hcollision, rfl⟩

private theorem names_newRow (t : Table) (values : List (String × Cell)) :
    (t.newRow values).cells.map Prod.fst = t.columns.map fun c => Text.fold c.name := by
  rw [newRow, List.map_map]
  rfl

private theorem Consistent.texts_newRow (h : t.Consistent) (values : List (String × Cell)) :
    ∀ c ∈ t.columns, ∀ s, (t.newRow values).cell c.name = .text s →
      (Cell.text s).store c.affinity = .text s := by
  intro c hc s hs
  rw [cell_newRow, h.column?_eq hc rfl] at hs
  exact Cell.store_of_store_eq_text hs

private theorem Consistent.fillRowKey_cases (h : t.Consistent) {filled : Row}
    (hfill : t.fillRowKey r = .ok filled) :
    filled = r ∨ ∃ column n, t.has column = true ∧ filled = r.update [(column, .int n)] := by
  rw [fillRowKey] at hfill
  split at hfill
  · cases hfill
    exact Or.inl rfl
  next column hcolumn =>
    split at hfill
    · cases hfill
      exact Or.inr ⟨column, _, h.rowKey column hcolumn, rfl⟩
    · cases hfill
      exact Or.inl rfl
    · cases hfill

private theorem Consistent.admits_fillRowKey (h : t.Consistent) {values : List (String × Cell)}
    {r : Row} (hfill : t.fillRowKey (t.newRow values) = .ok r) (hmissing : t.missing? r = none) :
    t.Admits r := by
  rcases h.fillRowKey_cases hfill with rfl | ⟨column, n, hcolumn, rfl⟩
  · exact ⟨t.names_newRow values, hmissing, h.texts_newRow values⟩
  · refine ⟨?_, hmissing, fun c hc s hs => ?_⟩
    · rw [Row.names_update, t.names_newRow]
      rw [List.forall_mem_singleton, Row.Lists, t.names_newRow, ← has_iff]
      exact hcolumn
    · rw [Row.cell_update] at hs
      cases hfind : findEntry (Text.fold c.name) (Row.ofChanges [(column, .int n)]) with
      | none =>
          rw [hfind] at hs
          exact h.texts_newRow values c hc s hs
      | some cell =>
          -- the number itself is no text
          have hcell : cell = .int n := by
            rw [Row.ofChanges, List.map_singleton, findEntry_cons] at hfind
            split at hfind
            · exact (Option.some_inj.mp hfind).symm
            · cases hfind
          rw [hfind, hcell, Option.getD_some] at hs
          cases hs

theorem Consistent.insert (h : t.Consistent) {conflict : Conflict} {values : List (String × Cell)}
    {taken : Bool} (hinsert : t.insert conflict values = .ok (u, taken)) : u.Consistent := by
  rcases insert_eq_ok hinsert with rfl | ⟨r, hfill, hmissing, hcollision, rfl⟩
  · exact h
  · have hplace := t.place_perm r
    have hadmits := h.admits_fillRowKey hfill hmissing
    refine ⟨h.columns, h.rowKey, h.parts, fun other hother => ?_, fun i hi hunique => ?_⟩
    · rcases List.mem_cons.mp (hplace.mem_iff.mp hother) with rfl | hother
      · exact ⟨hadmits.names, hadmits.required, hadmits.texts⟩
      · exact ⟨(h.rows other hother).names, (h.rows other hother).required,
          (h.rows other hother).texts⟩
    · refine hasCollision_perm hplace.symm (hasCollision_eq_false_iff.mpr ?_)
      refine List.pairwise_cons.mpr ⟨?_, hasCollision_eq_false_iff.mp (h.unique i hi hunique)⟩
      exact collision?_eq_none_iff.mp hcollision i hi hunique

end Table

/-! Sources -/

namespace TableSource

theorem consistent_insertRows {columns : List String} {t u : Table} {rows : List (List Cell)}
    (h : t.Consistent) (hinsert : insertRows columns t rows = .ok u) : u.Consistent := by
  induction rows generalizing t with
  | nil =>
      cases hinsert
      exact h
  | cons cells rest ih =>
      rw [insertRows] at hinsert
      split at hinsert
      · split at hinsert
        · cases hinsert
        next changed taken hchanged => exact ih (h.insert hchanged) hinsert
      · cases hinsert

theorem consistent_table {s : TableSource} {t : Table} (h : s.table = .ok t) : t.Consistent := by
  rw [table] at h
  split at h
  · cases h
  · split at h
    · cases h
    next empty hempty => exact consistent_insertRows (Table.consistent_ofDeclarations hempty) h

end TableSource

namespace Database

variable {db changed : Database}

theorem Consistent.addIndexes (h : db.Consistent) {name : String}
    {indexes : List (String × List String)} (hadd : db.addIndexes name indexes = .ok changed) :
    changed.Consistent := by
  induction indexes generalizing db with
  | nil =>
      cases hadd
      exact h
  | cons entry rest ih =>
      rw [Database.addIndexes] at hadd
      split at hadd
      · cases hadd
      · split at hadd
        · cases hadd
        next next hnext => exact ih (h.ensureIndex hnext) hadd

theorem Consistent.addSource (h : db.Consistent) {s : TableSource}
    (hadd : db.addSource s = .ok changed) : changed.Consistent := by
  rw [Database.addSource] at hadd
  split at hadd
  · cases hadd
  · split at hadd
    · cases hadd
    next next hnext =>
      refine Consistent.addIndexes ?_ hadd
      rcases ensureTable_eq_ok hnext with ⟨-, rfl⟩ | ⟨-, t, ht, rfl⟩
      · exact h
      · exact h.append (TableSource.consistent_table ht)

private theorem Consistent.addSources (h : db.Consistent) {sources : List TableSource}
    (hadd : sources.foldlM Database.addSource db = .ok changed) : changed.Consistent := by
  induction sources generalizing db with
  | nil =>
      cases hadd
      exact h
  | cons s rest ih =>
      rw [List.foldlM_cons] at hadd
      obtain ⟨next, hnext, hrest⟩ := bind_eq_ok.mp hadd
      exact ih (h.addSource hnext) hrest

/-- The tables of a database that is given by its tables are as statements make and leave them. -/
theorem consistent_ofSources {sources : List TableSource} (h : ofSources sources = .ok db) :
    db.Consistent := by
  have hempty : empty.Consistent := fun t ht => absurd ht List.not_mem_nil
  exact hempty.addSources h

end Database

end Gazetteer
