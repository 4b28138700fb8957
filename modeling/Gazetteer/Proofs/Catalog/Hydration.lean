import Mathlib
import Gazetteer.Proofs.Catalog.Reachable
/-!
Reading many resources at once.  The ids are read in chunks, and what each chunk finds is put beside
what was found before; the result is that of reading the ids one by one.
-/

namespace Gazetteer

open Layout

/-- What the rows of a database say of the resource of an id. -/
structure Database.Describes (db : Database) (id : String) (r : Resource) : Prop where
  id_eq : r.id = id
  /-- The values of a field stand as their rows do. -/
  values : ∀ field, (r.values field).map Cell.text = ((db.rows attributes).filter fun row =>
    row.cell "id" == .text id && row.cell "field" == .text field).map fun row => row.cell "value"
  /-- The distributions stand by the positions of their rows. -/
  distributions : ∃ rows : List Row,
    rows.Perm ((db.rows Layout.distributions).filter fun row =>
        row.cell "resource_id" == .text id) ∧
      rows.Pairwise (fun a b =>
        Cell.compare .binary (a.cell "position") (b.cell "position") = .lt) ∧
      r.distributions.map (fun d =>
        (Cell.text d.relation, Cell.text d.url, (d.label.map Cell.text).getD .null)) =
          rows.map fun row => (row.cell "relation_key", row.cell "url", row.cell "label")

namespace Ledger

variable {L : Ledger}

private theorem beq_text (a b : String) : (Cell.text a == Cell.text b) = (a == b) := by
  rw [Bool.eq_iff_iff, beq_iff_eq, beq_iff_eq, Cell.text.injEq]

private theorem values_rows (h : L.Sound) {r : Resource} (hr : r ∈ L.resources) (field : String) :
    ((L.record r).values field).map Cell.text = ((L.database.rows attributes).filter fun row =>
      row.cell "id" == .text r.id && row.cell "field" == .text field).map
        fun row => row.cell "value" := by
  rw [rows_attributes, List.filter_map]
  simp only [Function.comp_def, attributeRow_id, attributeRow_field, beq_text]
  rw [filter_attributes h hr, values_record, List.map_map, List.map_map]
  simp only [Function.comp_def, attributeRow_value]

private theorem placements_rows (L : Ledger) (id : String) :
    (L.database.rows Layout.distributions).filter (fun row => row.cell "resource_id" == .text id) =
      (L.placements.filter fun p => p.id == id).map Placement.row := by
  rw [rows_distributions, List.filter_map]
  simp only [Function.comp_def, Placement.row_id, beq_text]

private theorem pairwise_positions (h : L.Sound) (id : String) :
    ((L.placements.filter fun p => p.id == id).map Placement.row).Pairwise fun a b =>
      Cell.compare .binary (a.cell "position") (b.cell "position") = .lt := by
  rw [List.pairwise_map]
  refine (h.placements.sublist List.filter_sublist).imp_of_mem fun {p q} hp hq hapart => ?_
  have hpid : p.id = id := beq_iff_eq.mp (List.mem_filter.mp hp).2
  have hqid : q.id = id := beq_iff_eq.mp (List.mem_filter.mp hq).2
  rw [Placement.row_position, Placement.row_position, Cell.compare_int]
  exact Int.compare_eq_lt.mpr (hapart (hqid.trans hpid.symm)).1

theorem describes_record (h : L.Sound) {r : Resource} (hr : r ∈ L.resources) :
    L.database.Describes r.id (L.record r) where
  id_eq := rfl
  values := values_rows h hr
  distributions := by
    refine ⟨_, (placements_rows L r.id).symm ▸ List.Perm.refl _, pairwise_positions h r.id, ?_⟩
    simp only [record, List.map_map, Function.comp_def, Placement.row_relation, Placement.row_url,
      Placement.row_label]

private theorem mem_of_resource? {id : String} {found : Resource}
    (h : L.resource? id = some found) : ∃ r ∈ L.resources, r.id = id ∧ L.record r = found := by
  obtain ⟨r, hr, hrecord⟩ := Option.map_eq_some_iff.mp h
  exact ⟨r, List.mem_of_find?_eq_some hr, by simpa using List.find?_some hr, hrecord⟩

theorem isSome_resource?_iff (h : L.Sound) (id : String) :
    (L.resource? id).isSome ↔
      ∃ row ∈ L.database.rows Layout.resources, row.cell "id" = .text id := by
  rw [rows_resources]
  constructor
  · intro hsome
    obtain ⟨found, hfound⟩ := Option.isSome_iff_exists.mp hsome
    obtain ⟨r, hr, rfl, -⟩ := mem_of_resource? hfound
    exact ⟨r.scalarRow, List.mem_map_of_mem hr, Resource.scalarRow_id⟩
  · rintro ⟨row, hrow, hid⟩
    obtain ⟨r, hr, rfl⟩ := List.mem_map.mp hrow
    rw [Resource.scalarRow_id, Cell.text.injEq] at hid
    rw [← hid, resource?_of_mem h hr]
    rfl

theorem describes_resource? (h : L.Sound) {id : String} {found : Resource}
    (hfound : L.resource? id = some found) : L.database.Describes id found := by
  obtain ⟨r, hr, rfl, rfl⟩ := mem_of_resource? hfound
  exact describes_record h hr

theorem hydrate_singleton (h : L.Sound) (id : String) :
    L.database.hydrate [id] = .ok (L.resource? id).toList := by
  have hone : [id].eraseDups = [id] := rfl
  rw [hydrate_database h, hone]
  cases hread : L.resource? id with
  | none => rw [List.filterMap_cons_none hread]; rfl
  | some r => rw [List.filterMap_cons_some hread]; rfl

/-- However the ids are cut into chunks, the same resources are found. -/
theorem hydrate_flatten (h : L.Sound) (chunks : List (List String)) :
    (L.database.readChunks .empty chunks).map
      (fun found => chunks.flatten.eraseDups.filterMap found.get?) =
        L.database.hydrate chunks.flatten := by
  have hstart : ∀ id r, (Dict.empty : Database.Found).get? id = some r → L.resource? id = some r :=
    fun id r hr => nomatch hr
  obtain ⟨found, hfound, hget⟩ := readChunks_database h chunks hstart
  rw [hfound, hydrate_database h]
  refine congrArg Except.ok (List.filterMap_congr fun id hid => ?_)
  rw [hget, if_pos (List.mem_eraseDups.mp hid)]

end Ledger

/-- Of a list of ids each is read as it is read alone: once, at its first place, and not at all
without a row of its own. -/
theorem Session.Reachable.hydrate_oneByOne {s : Session} (h : s.Reachable) :
    ∃ db, s.catalog.database = some db ∧ ∃ read : String → Option Resource,
      (∀ id, db.hydrate [id] = .ok (read id).toList) ∧
      (∀ id, (read id).isSome ↔ ∃ row ∈ db.rows resources, row.cell "id" = .text id) ∧
      (∀ id, ∀ r ∈ read id, db.Describes id r) ∧
      (∀ ids, db.hydrate ids = .ok (ids.eraseDups.filterMap read)) ∧
      ∀ chunks : List (List String), (db.readChunks .empty chunks).map
        (fun found => chunks.flatten.eraseDups.filterMap found.get?) =
          db.hydrate chunks.flatten := by
  obtain ⟨L, hL, hc⟩ := h.ledger
  exact ⟨L.database, hc, L.resource?, Ledger.hydrate_singleton hL, Ledger.isSome_resource?_iff hL,
    fun id r hr => Ledger.describes_resource? hL hr, Ledger.hydrate_database hL,
    Ledger.hydrate_flatten hL⟩

theorem Session.hydrate_oneByOne_afterUpsert :
    let s := afterUpsert (.ofId "a") [⟨"url", "u", none⟩]
    s.Reachable ∧ ∃ db, s.catalog.database = some db ∧ ∃ read : String → Option Resource,
      (∀ id, db.hydrate [id] = .ok (read id).toList) ∧
      (∀ id, (read id).isSome ↔ ∃ row ∈ db.rows resources, row.cell "id" = .text id) ∧
      (∀ id, ∀ r ∈ read id, db.Describes id r) ∧
      (∀ ids, db.hydrate ids = .ok (ids.eraseDups.filterMap read)) ∧
      ∀ chunks : List (List String), (db.readChunks .empty chunks).map
        (fun found => chunks.flatten.eraseDups.filterMap found.get?) =
          db.hydrate chunks.flatten := by
  have h : (afterUpsert (.ofId "a") [⟨"url", "u", none⟩]).Reachable :=
    reachable_afterUpsert (by decide) _
  exact ⟨h, h.hydrate_oneByOne⟩

end Gazetteer
