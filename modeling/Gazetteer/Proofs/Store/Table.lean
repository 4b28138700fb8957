import Mathlib
import Gazetteer.Proofs.Dict
import Gazetteer.Proofs.Except
import Gazetteer.Proofs.Store.Cell
import Gazetteer.Store.Table
/-!
Statements on tables that have no ordering column and no rules: what each one gives, as an equation
for the whole new table.
-/

namespace Gazetteer

namespace Table

variable {t : Table}

theorem need_eq_ok {names : List String} (h : ∀ name ∈ names, t.has name = true) :
    t.need names = .ok () := by
  induction names with
  | nil => rfl
  | cons name rest ih =>
      rw [need, if_pos (h name List.mem_cons_self)]
      exact ih fun other hother => h other (List.mem_cons_of_mem _ hother)

theorem cell_newRow (t : Table) (values : List (String × Cell)) (column : String) :
    (t.newRow values).cell column =
      match t.column? column with
      | some c =>
          (((values.find? fun value => Text.sameLetters value.1 column).map Prod.snd).getD
            c.fallback).store c.affinity
      | none => .null := by
  have hfind : (t.newRow values).cell column =
      ((t.column? column).map fun c =>
        (((values.find? fun value => Text.sameLetters value.1 c.name).map Prod.snd).getD
          c.fallback).store c.affinity).getD .null := by
    simp only [Row.cell, newRow, findEntry, List.find?_map, Option.map_map, Function.comp_def,
      column?, Text.sameLetters]
  rw [hfind]
  cases hcolumn : t.column? column with
  | none => rfl
  | some c =>
      have hname : Text.fold c.name = Text.fold column := by
        simpa [Text.sameLetters] using List.find?_some hcolumn
      simp only [Option.map_some, Option.getD_some, Text.sameLetters, hname]

theorem checkRules_eq_ok (hrules : t.rejections = []) (event : RowEvent) :
    t.checkRules event = .ok () := by
  rw [checkRules, hrules]
  rfl

theorem checkRejections_eq_ok (hrules : t.rejections = []) (event : RowEvent) (r : Row) :
    t.checkRejections event r = .ok () := by
  rw [checkRejections, hrules]
  rfl

theorem insert_eq (hkey : t.rowKey = none) (hrules : t.rejections = [])
    {values : List (String × Cell)} (hneed : ∀ name ∈ values.map Prod.fst, t.has name = true)
    (hmissing : t.missing? (t.newRow values) = none) (conflict : Conflict) :
    t.insert conflict values =
      match t.collision? t.rows (t.newRow values), conflict with
      | none, _ => .ok ({ t with rows := t.rows ++ [t.newRow values] }, true)
      | some _, .ignore => .ok (t, false)
      | some i, .abort => .error i.fault := by
  simp only [insert, need_eq_ok hneed, checkRules_eq_ok hrules, fillRowKey, hkey,
    checkRejections_eq_ok hrules, place, ok_bind]
  rw [hmissing]
  cases t.collision? t.rows (t.newRow values) with
  | none => rfl
  | some i => cases conflict <;> rfl

theorem delete_eq (hrules : t.rejections = []) {column : String} (hneed : t.has column = true)
    (value : String) :
    t.delete column value =
      .ok ({ t with rows := t.without column value }, (t.select column value).length) := by
  have hnames : ∀ name ∈ [column], t.has name = true := by
    intro name hname
    rwa [List.mem_singleton.mp hname]
  have hgone (gone : List Row) :
      gone.forM (t.checkRejections .delete) = (.ok () : Except Fault Unit) := by
    induction gone with
    | nil => rfl
    | cons r rest ih =>
        change (t.checkRejections .delete r >>= fun _ => rest.forM _) = _
        rw [checkRejections_eq_ok hrules, ok_bind, ih]
  simp only [delete, need_eq_ok hnames, checkRules_eq_ok hrules, hgone, ok_bind]
  rfl

theorem collision?_singleton {i : Index} (hindexes : t.indexes = [i]) (hunique : i.unique = true)
    (rows : List Row) (r : Row) :
    t.collision? rows r = if rows.any (i.collide r) then some i else none := by
  rw [collision?, hindexes]
  cases hany : rows.any (i.collide r) <;> simp [hunique, hany]

theorem upsert_eq (hkey : t.rowKey = none) (hrules : t.rejections = []) {i : Index} {key : String}
    (hindexes : t.indexes = [i]) (hunique : i.unique = true)
    (hparts : i.parts = [.column key]) {values : List (String × Cell)}
    (hneed : ∀ name ∈ values.map Prod.fst, t.has name = true)
    (hmissing : t.missing? (t.newRow values) = none)
    (hchanged : ∀ old ∈ t.rows, i.collide (t.newRow values) old = true →
      old.update ((values.filter fun value => !Text.sameLetters value.1 key).map
        fun value => (value.1, (t.newRow values).cell value.1)) = t.newRow values) :
    t.upsert key values = .ok { t with
      rows :=
        if t.rows.any (i.collide (t.newRow values)) then
          t.rows.map fun other =>
            if i.collide (t.newRow values) other then t.newRow values else other
        else t.rows ++ [t.newRow values] } := by
  have hindex : (t.indexes.find? fun i =>
      i.unique && i.parts.map (fun p => Text.fold p.columnName) == [Text.fold key] &&
        i.parts.all fun p => p == .column p.columnName) = some i := by
    rw [hindexes]
    simp [hunique, hparts, KeyPart.columnName]
  simp only [upsert, need_eq_ok hneed, checkRules_eq_ok hrules, hindex, fillRowKey, hkey,
    checkRejections_eq_ok hrules, hmissing, place, collision?_singleton hindexes hunique, ok_bind]
  cases hfind : t.rows.find? fun other => i.collide (t.newRow values) other with
  | none =>
      have hany : t.rows.any (i.collide (t.newRow values)) = false := by
        rw [List.any_eq_false]
        exact List.find?_eq_none.mp hfind
      simp only [hany]
      rfl
  | some old =>
      have hold := List.find?_some hfind
      have hany : t.rows.any (i.collide (t.newRow values)) = true :=
        List.any_eq_true.mpr ⟨old, List.mem_of_find?_eq_some hfind, hold⟩
      have hothers : (t.rows.filter fun other => !i.collide (t.newRow values) other).any
          (i.collide (t.newRow values)) = false := by
        simp
      have hsame := hchanged old (List.mem_of_find?_eq_some hfind) hold
      simp only [hsame, hothers, hany, if_true]
      rfl

end Table

end Gazetteer
