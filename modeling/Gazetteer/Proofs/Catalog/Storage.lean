import Mathlib
import Gazetteer.Proofs.Catalog.Reachable
import Gazetteer.Proofs.Text.Like
import Gazetteer.Proofs.Text.Lowercase
/-!
What holds of the tables of a reachable session: the rows of a resource belong together, no value
and no distribution is stored twice, and the searched text is that of what is read back.
-/

namespace Gazetteer

open Layout

def Cell.orEmpty : Cell → Cell
  | .null => .text ""
  | c => c

namespace Database

structure WellStored (db : Database) : Prop where
  /-- The same ids stand in both tables, once each, and none of them is blank. -/
  ids : ∃ ids : List String, ids.Nodup ∧ (∀ id ∈ ids, Text.allBlank id = false) ∧
    ((db.rows resources).map fun row => row.cell "id").Perm (ids.map Cell.text) ∧
      ((db.rows searchTexts).map fun row => row.cell "id").Perm (ids.map Cell.text)
  values : ∀ row ∈ db.rows attributes, ∃ id field value,
    row.cell "id" = .text id ∧ row.cell "field" = .text field ∧ row.cell "value" = .text value ∧
      (∃ owner ∈ db.rows resources, owner.cell "id" = .text id) ∧
        wellFormedName field = true ∧ Schema.isScalar .aardvark field = false ∧
          Text.allBlank value = false
  valuesOnce : ((db.rows attributes).map fun row =>
    (row.cell "id", row.cell "field", row.cell "value")).Nodup
  noGeometry : ∀ row ∈ db.rows resources, (row.cell boxField).envelope? = none →
    ∀ column ∈ geometryColumns, row.cell column = .null
  geometry : ∀ row ∈ db.rows resources, ∀ e, (row.cell boxField).envelope? = some e →
    ∃ stored : Envelope, stored.sameNumbers e = true ∧ geometryColumns.map row.cell =
      [.real stored.minX, .real stored.minY, .real stored.maxX, .real stored.maxY]
  distributionsOnce : ((db.rows distributions).map fun row =>
    (row.cell "resource_id", row.cell "relation_key", row.cell "url",
      (row.cell "label").orEmpty)).Nodup
  positionsOnce : ((db.rows distributions).map fun row =>
    (row.cell "resource_id", row.cell "position")).Nodup
  /-- A text without spaces is found in what is stored as it is in what is read back. -/
  searched : ∀ row ∈ db.rows searchTexts, ∃ id content r,
    row.cell "id" = .text id ∧ row.cell "content" = .text content ∧ db.hydrate [id] = .ok [r] ∧
      ∀ w : String, ' ' ∉ w.toList →
        (w.toList <:+: content.toList ↔
          w.toList <:+: (Schema.searchContent .aardvark r).toList)

end Database

namespace Ledger

variable {L : Ledger}

/-! The searched text -/

theorem mem_searchParts_record (L : Ledger) (r : Resource) (part : String) :
    part ∈ Schema.searchParts .aardvark (L.record r) ↔ part ∈ Schema.searchParts .aardvark r := by
  simp only [Schema.searchParts, List.mem_filter, List.mem_flatMap, Bool.not_eq_true']
  refine and_congr_left fun hblank => exists_congr fun f => and_congr_right fun _ => ?_
  cases f.kind with
  | scalar => exact Iff.rfl
  | repeatable =>
      change part ∈ (L.record r).values f.name ↔ part ∈ r.values f.name
      rw [values_record, Database.keptValues, List.mem_eraseDups, List.mem_filter]
      simp [hblank]

private theorem infix_searchContent (r : Resource) {w : String} (hempty : w.toList ≠ [])
    (hspace : ' ' ∉ w.toList) :
    w.toList <:+: (Schema.searchContent .aardvark r).toList ↔
      ∃ part ∈ Schema.searchParts .aardvark r, w.toList <:+: (Text.lowercase part).toList := by
  rw [Schema.searchContent, Text.toList_lowercase_intercalate,
    Text.infix_intercalate_space hempty hspace]
  simp only [List.mem_map, exists_exists_and_eq_and]

/-- Values that are dropped on writing make no difference to what is found in the searched text. -/
theorem infix_searchContent_record (L : Ledger) (r : Resource) {w : String}
    (hspace : ' ' ∉ w.toList) :
    w.toList <:+: (Schema.searchContent .aardvark r).toList ↔
      w.toList <:+: (Schema.searchContent .aardvark (L.record r)).toList := by
  by_cases hempty : w.toList = []
  · rw [hempty]
    exact iff_of_true List.nil_infix List.nil_infix
  · rw [infix_searchContent r hempty hspace, infix_searchContent (L.record r) hempty hspace]
    simp only [mem_searchParts_record]

/-! The tables of a sound ledger -/

private theorem nodup_distributions (h : L.Sound) :
    ((L.placements.map Placement.row).map fun row =>
      (row.cell "resource_id", row.cell "relation_key", row.cell "url",
        (row.cell "label").orEmpty)).Nodup := by
  have hlabel (d : Distribution) :
      ((d.label.map Cell.text).getD .null).orEmpty = .text (d.label.getD "") := by
    cases d.label <;> rfl
  rw [List.map_map, List.Nodup, List.pairwise_map]
  refine h.placements.imp fun {p q} hapart heq => ?_
  simp only [Function.comp_apply, Placement.row_id, Placement.row_relation, Placement.row_url,
    Placement.row_label, hlabel, Prod.mk.injEq, Cell.text.injEq] at heq
  obtain ⟨hid, hrelation, hurl, hlabels⟩ := heq
  have hclash := (hapart hid.symm).2
  simp [Placement.clashes, hid, hrelation, hurl, hlabels] at hclash

private theorem nodup_positions (h : L.Sound) :
    ((L.placements.map Placement.row).map fun row =>
      (row.cell "resource_id", row.cell "position")).Nodup := by
  rw [List.map_map, List.Nodup, List.pairwise_map]
  refine h.placements.imp fun {p q} hapart heq => ?_
  simp only [Function.comp_apply, Placement.row_id, Placement.row_position, Prod.mk.injEq,
    Cell.text.injEq, Cell.int.injEq] at heq
  obtain ⟨hid, hposition⟩ := heq
  exact absurd hposition (hapart hid.symm).1.ne

private theorem geometry_scalarRow {r : Resource} (hr : Schema.Accepts .aardvark r)
    {e : Envelope} (he : r.envelope? = some e) :
    geometryColumns.map r.scalarRow.cell =
      [.real e.minX, .real e.minY, .real e.maxX, .real e.maxY] := by
  have hcells : geometryColumns.map r.scalarRow.cell = geometryColumns.map fun column =>
      (findEntry column (Database.geometryCells (some e))).getD .null :=
    List.map_congr_left fun column hcolumn => by
      rw [Resource.scalarRow_geometry hr hcolumn, he]
  rw [hcells]
  simp [geometryColumns, Database.geometryCells, findEntry]

theorem wellStored_database (h : L.Sound) : L.database.WellStored where
  ids := by
    refine ⟨L.resources.map Resource.id, h.resources, ?_, ?_, ?_⟩
    · intro id hid
      obtain ⟨r, hr, rfl⟩ := List.mem_map.mp hid
      exact (h.accepted r hr).id
    · rw [rows_resources, List.map_map, List.map_map]
      exact List.Perm.of_eq (List.map_congr_left fun r _ => Resource.scalarRow_id)
    · rw [rows_searchTexts, List.map_map, List.map_map]
      exact List.Perm.of_eq (List.map_congr_left fun r _ => Resource.searchRow_id)
  values := by
    intro row hrow
    rw [rows_attributes] at hrow
    obtain ⟨entry, hentry, rfl⟩ := List.mem_map.mp hrow
    obtain ⟨r, hr, hown⟩ := List.mem_flatMap.mp hentry
    obtain ⟨hid, hvalue, hblank⟩ := Resource.mem_attributes.mp hown
    have hkey : entry.2.1 ∈ r.repeatables.keys := by
      cases hget : r.repeatables.get? entry.2.1 with
      | none =>
          rw [Resource.values, hget] at hvalue
          exact absurd hvalue List.not_mem_nil
      | some given => exact Dict.mem_keys_iff.mpr ⟨given, hget⟩
    obtain ⟨hname, hscalar⟩ := (h.accepted r hr).repeatables _ hkey
    refine ⟨entry.1, entry.2.1, entry.2.2, attributeRow_id entry, attributeRow_field entry,
      attributeRow_value entry, ⟨r.scalarRow, ?_, ?_⟩, hname, hscalar, hblank⟩
    · rw [rows_resources]
      exact List.mem_map_of_mem hr
    · rw [Resource.scalarRow_id, hid]
  valuesOnce := by
    rw [rows_attributes, List.map_map]
    refine h.nodup_attributes.map fun a b heq => ?_
    simpa [Prod.ext_iff] using heq
  noGeometry := by
    intro row hrow hnone column hcolumn
    rw [rows_resources] at hrow
    obtain ⟨r, hr, rfl⟩ := List.mem_map.mp hrow
    rw [Resource.scalarRow_box (h.accepted r hr)] at hnone
    exact Resource.scalarRow_noGeometry (h.accepted r hr) hnone hcolumn
  geometry := by
    intro row hrow e he
    rw [rows_resources] at hrow
    obtain ⟨r, hr, rfl⟩ := List.mem_map.mp hrow
    rw [Resource.scalarRow_box (h.accepted r hr)] at he
    obtain ⟨text, -, htext⟩ := Option.bind_eq_some_iff.mp he
    refine ⟨e.stored, (Envelope.isFinite_of_parse? htext).stored_sameNumbers, ?_⟩
    exact geometry_scalarRow (h.accepted r hr) (by rw [Resource.envelope?, he, Option.map_some])
  distributionsOnce := by
    rw [rows_distributions]
    exact nodup_distributions h
  positionsOnce := by
    rw [rows_distributions]
    exact nodup_positions h
  searched := by
    intro row hrow
    rw [rows_searchTexts] at hrow
    obtain ⟨r, hr, rfl⟩ := List.mem_map.mp hrow
    refine ⟨r.id, Schema.searchContent .aardvark r, L.record r, Resource.searchRow_id,
      Resource.searchRow_content, ?_, fun w hspace => infix_searchContent_record L r hspace⟩
    have hone : [r.id].eraseDups = [r.id] := rfl
    rw [hydrate_database h, hone, List.filterMap_cons, resource?_of_mem h hr, List.filterMap_nil]

end Ledger

/-- Every table of a reachable session is well stored. -/
theorem Session.Reachable.wellStored {s : Session} (h : s.Reachable) :
    ∃ db, s.catalog.database = some db ∧ db.WellStored := by
  obtain ⟨L, hL, hdatabase⟩ := h.ledger
  exact ⟨L.database, hdatabase, L.wellStored_database hL⟩

theorem Session.wellStored_afterUpsert :
    ∃ db, (afterUpsert (.ofId "a") [⟨"r", "u", none⟩]).catalog.database = some db ∧
      db.WellStored :=
  Reachable.wellStored (reachable_afterUpsert (by decide +kernel) _)

end Gazetteer
