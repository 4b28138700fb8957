import Mathlib
import Gazetteer.Proofs.Catalog.Columns
import Gazetteer.Proofs.Migration.Backfill
import Gazetteer.Proofs.Schema
import Gazetteer.Proofs.Store.Legacy
/-!
Reading the resources of a database that was brought to the present layout.  A column that was there
keeps its spelling, and statements find it whatever the case of its letters; but resources are read
by the names of the columns as they are spelled.  A field whose column is spelled otherwise is read
under that spelling only, an envelope of which one column is spelled otherwise is not read, and a
resource whose id column is spelled otherwise is not found.
-/

namespace Gazetteer

open Layout

namespace Table

/-! Spelling -/

/-- The name that a table spells a column by; of a column that it lacks, the name itself. -/
def spelling (t : Table) (column : String) : String :=
  ((t.column? column).map Column.name).getD column

def Spells (t : Table) (column : String) : Prop :=
  t.spelling column = column

instance (t : Table) : DecidablePred t.Spells :=
  fun column => inferInstanceAs (Decidable (t.spelling column = column))

variable {t u : Table} {r : Row} {column : String}

theorem column?_congr (t : Table) {a b : String} (h : Text.fold a = Text.fold b) :
    t.column? a = t.column? b := by
  simp only [column?, Text.sameLetters, h]

theorem fold_spelling (t : Table) (column : String) :
    Text.fold (t.spelling column) = Text.fold column := by
  rw [spelling]
  cases hfind : t.column? column with
  | none => rfl
  | some c => simpa [Text.sameLetters] using List.find?_some hfind

theorem spells_spelling (t : Table) (column : String) : t.Spells (t.spelling column) := by
  have hsame := t.column?_congr (t.fold_spelling column)
  rw [Spells, spelling, hsame]
  cases hfind : t.column? column with
  | none => rw [spelling, hfind, Option.map_none, Option.getD_none, Option.getD_none]
  | some c => rw [spelling, hfind, Option.map_some, Option.getD_some, Option.getD_some]

theorem Consistent.mem_names (h : t.Consistent) :
    column ∈ t.columns.map Column.name ↔ t.has column = true ∧ t.Spells column := by
  rw [has, Spells, spelling]
  constructor
  · intro hcolumn
    obtain ⟨c, hc, rfl⟩ := List.mem_map.mp hcolumn
    rw [h.column?_eq hc rfl]
    exact ⟨rfl, rfl⟩
  · rintro ⟨hhas, hspells⟩
    obtain ⟨c, hfind⟩ := Option.isSome_iff_exists.mp hhas
    rw [hfind] at hspells
    exact List.mem_map.mpr ⟨c, List.mem_of_find?_eq_some hfind, hspells⟩

/-- What is read of a cell by the name of its column: nothing unless the column is spelled so. -/
theorem Consistent.read_named (h : t.Consistent) (hr : r ∈ t.rows) {α : Type}
    {f : Cell → Option α} (hf : f .null = none) (column : String) :
    (if column ∈ t.columns.map Column.name then f (r.cell column) else none) =
      if t.Spells column then f (r.cell column) else none := by
  by_cases hhas : t.has column = true
  · simp only [h.mem_names, hhas, true_and]
  · have hnull : r.cell column = .null := by
      apply Row.cell_of_not_lists
      rwa [(h.rows r hr).lists_iff]
    rw [hnull, hf, ite_self, ite_self]

end Table

namespace Row

def envelope? (r : Row) : Option Envelope := do
  return ⟨← (r.cell "geom_minx").number?, ← (r.cell "geom_miny").number?,
    ← (r.cell "geom_maxx").number?, ← (r.cell "geom_maxy").number?⟩

end Row

/-! Rows as they are read -/

namespace Database

theorem isFieldColumn_of_fold {name : String} (h : IsFieldColumn (Text.fold name)) :
    IsFieldColumn name := by
  obtain ⟨hid, hthumbnail, hgeometry⟩ := h
  refine ⟨fun hname => hid ?_, fun hname => hthumbnail ?_, fun hname => hgeometry ?_⟩
  · rw [hname]
    decide
  · rw [hname]
    decide
  · rwa [Row.fold_geometryColumns name hname]

theorem isFieldColumn_fold :
    ∀ field ∈ Schema.scalarColumns .aardvark, IsFieldColumn (Text.fold field) := by
  decide +kernel

end Database

namespace Table

variable {t : Table} {row : Row}

/-- What a resource says of a row, by the spelling that a table has for its columns. -/
structure Shows (t : Table) (row : Row) (r : Resource) : Prop where
  id : r.id = ((if t.Spells "id" then (row.cell "id").shown? else none).getD "")
  scalars : ∀ field ∈ Schema.scalarColumns .aardvark,
    r.scalar? field = if t.Spells field then (row.cell field).shown? else none
  spelled : ∀ field ∈ Schema.scalarColumns .aardvark,
    r.scalar? (t.spelling field) = (row.cell field).shown?
  geometry : r.geometry =
    if ∀ column ∈ geometryColumns, t.Spells column then row.envelope? else none

theorem Shows.id_eq_iff {r : Resource} (h : t.Shows row r) {id : String}
    (hid : row.cell "id" = .text id) : r.id = id ↔ t.Spells "id" ∨ id = "" := by
  rw [h.id, hid]
  by_cases hspells : t.Spells "id"
  · simp [hspells, Cell.shown?]
  · simp [hspells, eq_comm]

def readRow (t : Table) (row : Row) : Resource :=
  Database.resourceOfCells
    (t.columns.map (fun c => (c.name, row.cell c.name)) ++ [(Database.thumbnailColumn, .null)])

private theorem map_named (t : Table) (row : Row) :
    t.columns.map (fun c => (c.name, row.cell c.name)) =
      (t.columns.map Column.name).map fun name => (name, row.cell name) := by
  rw [List.map_map]
  rfl

theorem Consistent.nodup_names (h : t.Consistent) : (t.columns.map Column.name).Nodup := by
  have hfolded : ((t.columns.map Column.name).map Text.fold).Nodup := by
    rw [List.map_map]
    exact h.columns
  exact hfolded.of_map

theorem Consistent.scalar?_readRow (h : t.Consistent) (hrow : row ∈ t.rows)
    (hthumbnail : Database.thumbnailColumn ∉ t.columns.map Column.name) {field : String}
    (hfield : Database.IsFieldColumn field) :
    (t.readRow row).scalar? field = if t.Spells field then (row.cell field).shown? else none := by
  obtain ⟨scalars, hread, hscalars⟩ :=
    Database.resourceOfCells_named h.nodup_names hthumbnail row.cell .null
  rw [← h.read_named hrow rfl, readRow, map_named, hread, Resource.scalar?, hscalars]
  simp only [hfield, true_and]

theorem Consistent.shows_readRow (h : t.Consistent) (hrow : row ∈ t.rows)
    (hthumbnail : Database.thumbnailColumn ∉ t.columns.map Column.name) :
    t.Shows row (t.readRow row) := by
  obtain ⟨scalars, hread, -⟩ :=
    Database.resourceOfCells_named h.nodup_names hthumbnail row.cell .null
  have hnumber (column : String) :
      (if column ∈ t.columns.map Column.name then some (row.cell column) else none).bind
        Cell.number? = if t.Spells column then (row.cell column).number? else none := by
    rw [← h.read_named hrow (f := Cell.number?) rfl column]
    split <;> rfl
  refine ⟨?_, fun field hfield => ?_, fun field hfield => ?_, ?_⟩
  · rw [← h.read_named hrow rfl, readRow, map_named, hread]
    split <;> rfl
  · exact h.scalar?_readRow hrow hthumbnail (Database.isFieldColumn_of_scalar field hfield)
  · have hcolumn : Database.IsFieldColumn (t.spelling field) := by
      apply Database.isFieldColumn_of_fold
      rw [t.fold_spelling]
      exact Database.isFieldColumn_fold field hfield
    rw [h.scalar?_readRow hrow hthumbnail hcolumn, if_pos (t.spells_spelling field),
      row.cell_congr (t.fold_spelling field)]
  · rw [readRow, map_named, hread]
    simp only [Database.envelopeOfCells, findEntry_map_name, hnumber]
    by_cases hspells : ∀ column ∈ geometryColumns, t.Spells column
    · rw [if_pos hspells]
      simp only [geometryColumns, List.forall_mem_cons] at hspells
      obtain ⟨hminX, hminY, hmaxX, hmaxY, -⟩ := hspells
      simp only [hminX, hminY, hmaxX, hmaxY, if_true, Row.envelope?]
    · rw [if_neg hspells]
      -- one edge that is not read leaves no envelope, whichever it is
      simp only [not_forall] at hspells
      obtain ⟨column, hcolumn, hnot⟩ := hspells
      simp only [geometryColumns, List.mem_cons, List.not_mem_nil, or_false] at hcolumn
      rcases hcolumn with rfl | rfl | rfl | rfl <;> simp [hnot]

end Table

/-! Resources of which nothing but their rows is stored -/

namespace Database

variable {db : Database} {t : Table}

def sideTables : List (String × List (String × Declaration)) :=
  [(attributes, attributeColumns), (distributions, distributionColumns),
    (thumbnails, thumbnailColumns)]

/-- Whether these tables are there, with their columns and without a row. -/
def Bare (db : Database) : Prop :=
  ∀ entry ∈ sideTables, ∃ u, db.table? entry.1 = some u ∧ u.rows = [] ∧
    ∀ c ∈ entry.2, u.has c.1 = true

theorem chunksOf_singleton {α : Type} (n : Nat) (a : α) : chunksOf n [a] = [[a]] := by
  rw [chunksOf, List.take_nil, List.drop_nil, chunksOf]

namespace Bare

theorem rows (h : db.Bare) {entry : String × List (String × Declaration)}
    (hentry : entry ∈ sideTables) : db.rows entry.1 = [] := by
  obtain ⟨u, hu, hrows, -⟩ := h entry hentry
  simp only [Database.rows, hu, hrows]

theorem has (h : db.Bare) {entry : String × List (String × Declaration)}
    (hentry : entry ∈ sideTables) {column : String} (hcolumn : column ∈ entry.2.map Prod.fst) :
    ∃ u, db.table? entry.1 = some u ∧ u.has column = true := by
  obtain ⟨u, hu, -, hhas⟩ := h entry hentry
  obtain ⟨c, hc, rfl⟩ := List.mem_map.mp hcolumn
  exact ⟨u, hu, hhas c hc⟩

theorem readAttributes (h : db.Bare) (ids : List String) : db.readAttributes ids = .ok [] := by
  have hentry : (attributes, attributeColumns) ∈ sideTables := by
    simp [sideTables]
  have hneed : db.need [(attributes, "id"), (attributes, "field"), (attributes, "value")] =
      .ok () := by
    apply need_eq_ok
    simp only [List.forall_mem_cons, List.not_mem_nil, false_imp_iff, implies_true, and_true]
    exact ⟨h.has hentry (by decide), h.has hentry (by decide), h.has hentry (by decide)⟩
  rw [Database.readAttributes, hneed, h.rows hentry, List.filter_nil, List.mergeSort_nil]
  rfl

theorem readDistributions (h : db.Bare) (ids : List String) :
    db.readDistributions ids = .ok [] := by
  have hentry : (distributions, distributionColumns) ∈ sideTables := by
    simp [sideTables]
  have hneed : db.need (["resource_id", "relation_key", "url", "label", "position"].map
      (distributions, ·)) = .ok () := by
    apply need_eq_ok
    refine List.forall_mem_map.mpr fun column hcolumn => h.has hentry ?_
    rwa [show distributionColumns.map Prod.fst =
      ["resource_id", "relation_key", "url", "label", "position"] from rfl]
  rw [Database.readDistributions, hneed, h.rows hentry, List.filter_nil, List.mergeSort_nil]
  rfl

theorem readScalars (h : db.Bare) (ht : db.table? resources = some t) (hid : t.has "id" = true)
    (ids : List String) :
    db.readScalars ids = .ok ((t.rows.filter (db.hasId resources "id" ids)).map t.readRow) := by
  have hentry : (thumbnails, thumbnailColumns) ∈ sideTables := by
    simp [sideTables]
  have hneed : db.need [(thumbnails, "thumbnail_url"), (thumbnails, "id"), (resources, "id")] =
      .ok () := by
    apply need_eq_ok
    simp only [List.forall_mem_cons, List.not_mem_nil, false_imp_iff, implies_true, and_true]
    exact ⟨h.has hentry (by decide), h.has hentry (by decide), t, ht, hid⟩
  have hjoin (row : Row) : db.joinThumbnails t.columns row =
      [t.columns.map (fun c => (c.name, row.cell c.name)) ++ [(thumbnailColumn, .null)]] := by
    rw [joinThumbnails, belonging, h.rows hentry]
    rfl
  rw [Database.readScalars, hneed, table, ht]
  simp only [Except.map, hjoin, List.map_flatMap, List.map_singleton]
  rw [← List.map_eq_flatMap]
  rfl

/-- Of the rows that are read under one id the last one counts. -/
theorem hydrate (h : db.Bare) (ht : db.table? resources = some t) (hid : t.has "id" = true)
    (id : String) : db.hydrate [id] =
      .ok (((t.rows.filter (db.hasId resources "id" [id])).map t.readRow).filter
        (·.id == id)).getLast?.toList := by
  have hchunk (found : Found) : db.readChunk found [id] =
      .ok (((t.rows.filter (db.hasId resources "id" [id])).map t.readRow).foldl
        (fun found r => found.insert r.id r) found) := by
    simp only [readChunk, h.readScalars ht hid, h.readAttributes, h.readDistributions, ok_bind]
    rfl
  have hfound (found : Found) : [id].eraseDups.filterMap found.get? = (found.get? id).toList := by
    rw [List.eraseDups_cons, List.filter_nil, List.eraseDups_nil]
    cases hget : found.get? id <;> simp [hget]
  have hentries (scalars : List Resource) :
      (scalars.foldl (fun found r => found.insert r.id r) Dict.empty).get? id =
        (scalars.filter (·.id == id)).getLast? := by
    have hinsert := Dict.get?_foldl_insert (scalars.map fun r => (r.id, r)) .empty id
    rw [List.foldl_map, List.filter_map, List.getLast?_map, Dict.get?_empty, Option.or_none,
      Option.map_map] at hinsert
    exact hinsert.trans (congrFun Option.map_id _)
  rw [Database.hydrate, chunksOf_singleton]
  simp only [readChunks, hchunk, Except.map, hfound, hentries]

end Bare

theorem hasId_iff (ht : db.table? resources = some t) (hconsistent : t.Consistent) {row : Row}
    {id : String} (hrow : row ∈ t.rows) (hid : row.cell "id" = .text id) (other : Row) :
    db.hasId resources "id" [id] other = true ↔ other.cell "id" = .text id := by
  have hsame : (Cell.text id).against (db.affinity resources "id") = .text id := by
    rw [affinity, ht]
    exact hconsistent.wanted_eq hrow hid
  rw [hasId, List.any_cons, List.any_nil, Bool.or_false, hsame, Cell.equals_text_iff]

/-- What is read under the id of a row that no other row follows under it. -/
theorem hydrate_row (h : db.Bare) (hconsistent : t.Consistent)
    (ht : db.table? resources = some t) (hthumbnail : thumbnailColumn ∉ t.columns.map Column.name)
    {before after : List Row} {row : Row} {id : String} (hrows : t.rows = before ++ row :: after)
    (hid : row.cell "id" = .text id) (hlast : ∀ other ∈ after, other.cell "id" ≠ .text id) :
    db.hydrate [id] = .ok (if t.Spells "id" ∨ id = "" then [t.readRow row] else []) := by
  have hrow : row ∈ t.rows := by
    rw [hrows]
    exact List.mem_append_right _ List.mem_cons_self
  have hhas : t.has "id" = true := hconsistent.has_of_text hrow hid
  have hwanted := hasId_iff ht hconsistent hrow hid
  have hmatches : t.rows.filter (db.hasId resources "id" [id]) =
      before.filter (db.hasId resources "id" [id]) ++ [row] := by
    have hnone : after.filter (db.hasId resources "id" [id]) = [] := by
      rw [List.filter_eq_nil_iff]
      exact fun other hother hcell => hlast other hother ((hwanted other).mp hcell)
    rw [hrows, List.filter_append, List.filter_cons_of_pos ((hwanted row).mpr hid), hnone]
  -- all rows with the id are read alike, so either all of them are found under it or none is
  have hkeep : ∀ other ∈ t.rows.filter (db.hasId resources "id" [id]),
      ((·.id == id) ∘ t.readRow) other = decide (t.Spells "id" ∨ id = "") := by
    intro other hother
    obtain ⟨hmem, hcell⟩ := List.mem_filter.mp hother
    have hshows := hconsistent.shows_readRow hmem hthumbnail
    rw [Function.comp_apply, Bool.eq_iff_iff, beq_iff_eq, decide_eq_true_iff]
    exact hshows.id_eq_iff ((hwanted other).mp hcell)
  rw [h.hydrate ht hhas, List.filter_map, List.filter_congr hkeep, hmatches]
  by_cases hfound : t.Spells "id" ∨ id = ""
  · simp [hfound]
  · simp [hfound]

/-! Databases that were brought to the layout -/

theorem resourceNames_apart : (resourceNames.map Text.fold).Nodup := by
  decide +kernel

theorem thumbnailColumn_apart : Text.fold thumbnailColumn ∉ resourceNames.map Text.fold := by
  decide +kernel

end Database

namespace Table

variable {t u : Table}

/-- What a row of the resources has become.  Its envelope is kept too, unless one of the rows with
its id lacked the first edge. -/
structure Carried (t : Table) (old new : Row) : Prop where
  cells : ∀ column, Text.fold column ∉ geometryColumns → new.cell column = old.cell column
  edges : ∀ id, old.cell "id" = .text id →
    (∀ other ∈ t.rows, other.cell "id" = .text id → other.cell "geom_minx" ≠ .null) →
      ∀ column, new.cell column = old.cell column

structure Migrated (t u : Table) : Prop where
  consistent : u.Consistent
  columns : ∃ added, u.columns = t.columns ++ added ∧
    ∀ c ∈ added, c.name ∈ Database.resourceNames
  rows : ∃ f : Row → Row, u.rows = t.rows.map f ∧ ∀ r ∈ t.rows, t.Carried r (f r)

theorem Migrated.spelling (h : t.Migrated u) {column : String}
    (hcolumn : column ∈ Database.resourceNames) :
    u.spelling column = t.spelling column := by
  obtain ⟨added, hcolumns, hadded⟩ := h.columns
  rw [Table.spelling, Table.spelling, column?, hcolumns, List.find?_append, ← column?]
  cases t.column? column with
  | some c => rfl
  | none =>
      cases hfind : added.find? fun c => Text.sameLetters c.name column with
      | none => rfl
      | some c =>
          have hname : Text.fold c.name = Text.fold column := by
            simpa [Text.sameLetters] using List.find?_some hfind
          exact List.inj_on_of_nodup_map Database.resourceNames_apart
            (hadded c (List.mem_of_find?_eq_some hfind)) hcolumn hname

theorem Shows.of_migrated {row : Row} {r : Resource} (h : t.Migrated u) (hshows : u.Shows row r) :
    t.Shows row r := by
  have hspells {column : String} (hcolumn : column ∈ Database.resourceNames) :
      u.Spells column ↔ t.Spells column := by
    rw [Spells, Spells, h.spelling hcolumn]
  have hid : "id" ∈ Database.resourceNames := List.mem_cons_self
  refine ⟨?_, fun field hmem => ?_, fun field hmem => ?_, ?_⟩
  · rw [hshows.id]
    simp only [hspells hid]
  · rw [hshows.scalars field hmem]
    simp only [hspells (Database.scalar_mem_resourceNames hmem)]
  · rw [← h.spelling (Database.scalar_mem_resourceNames hmem)]
    exact hshows.spelled field hmem
  · have hall : (∀ column ∈ geometryColumns, u.Spells column) ↔
        ∀ column ∈ geometryColumns, t.Spells column :=
      forall₂_congr fun column hmem => hspells (Database.geometry_mem_resourceNames hmem)
    rw [hshows.geometry]
    simp only [hall]

theorem Migrated.thumbnail_not_mem (h : t.Migrated u)
    (hnames : ∀ c ∈ t.columns, ∃ name ∈ Database.resourceNames,
      Text.sameLetters c.name name = true) :
    Database.thumbnailColumn ∉ u.columns.map Column.name := by
  obtain ⟨added, hcolumns, hadded⟩ := h.columns
  intro hmem
  apply Database.thumbnailColumn_apart
  obtain ⟨c, hc, hname⟩ := List.mem_map.mp hmem
  rw [← hname]
  rw [hcolumns] at hc
  rcases List.mem_append.mp hc with hc | hc
  · obtain ⟨name, hmem, hsame⟩ := hnames c hc
    rw [show Text.fold c.name = Text.fold name from beq_iff_eq.mp hsame]
    exact List.mem_map_of_mem hmem
  · exact List.mem_map_of_mem (hadded c hc)

end Table

namespace Database

variable {db ready : Database} {t : Table}

theorem names_of_isLater {name : String} {added : List Column}
    (hname : Text.sameLetters name resources = true)
    (h : ∀ c ∈ added, IsLater .aardvark name c) :
    ∀ c ∈ added, c.name ∈ resourceNames ∧ c.fallback = .null := by
  rw [Text.sameLetters_comm] at hname
  intro c hc
  rcases isLater_resources hname (h c hc) with
    ⟨column, hcolumn, read, hread, rfl⟩ | ⟨column, hcolumn, rfl⟩
  · obtain rfl := Schema.eq_of_unquote?_scalar hcolumn hread
    exact ⟨scalar_mem_resourceNames hcolumn, rfl⟩
  · exact ⟨geometry_mem_resourceNames hcolumn, rfl⟩

theorem prepare_migrates (hdb : db.Consistent) (ht : db.table? resources = some t)
    (hready : db.prepare .aardvark = .ok ready) :
    ∃ u, ready.table? resources = some u ∧ t.Migrated u := by
  obtain ⟨later, ids, hcompletes, hrefills, hawaits⟩ := prepare_refills hdb hready
  obtain ⟨v, hv, hgained⟩ := hcompletes.grows.kept ht
  obtain ⟨added, hgrown, hlater⟩ := hgained.columns
  obtain ⟨u, hu, hrefilled⟩ := hrefills.resources hv
  obtain ⟨f, hf, hrows⟩ := hrefilled.rows
  have hadded := names_of_isLater (sameLetters_of_table? ht) hlater
  have hextend (r : Row) (column : String) : (r.extend added).cell column = r.cell column :=
    r.cell_extend_of_null column fun c hc => (hadded c hc).2
  -- a row of which the first edge was there does not await its envelope
  have hnot (id : String) (hedges : ∀ other ∈ t.rows, other.cell "id" = .text id →
      other.cell "geom_minx" ≠ .null) : id ∉ ids := by
    intro hawaited
    obtain ⟨row, hrow, hawait, hid⟩ := hawaits id hawaited
    simp only [rows, hv, hgrown.rows] at hrow
    obtain ⟨other, hother, rfl⟩ := List.mem_map.mp hrow
    rw [hextend] at hid
    rw [awaitsEnvelope, Bool.and_eq_true, hextend, Cell.isNull_iff] at hawait
    exact hedges other hother hid hawait.1
  refine ⟨u, hu, hrefills.consistent u (mem_of_table? hu), ⟨added, ?_, fun c hc => (hadded c hc).1⟩,
    fun r => f (r.extend added), ?_, fun r hr => ?_⟩
  · rw [hrefilled.columns, hgrown.columns]
  · rw [hf, hgrown.rows, List.map_map]
    rfl
  · have hmem : r.extend added ∈ v.rows := by
      rw [hgrown.rows]
      exact List.mem_map_of_mem hr
    obtain ⟨houtside, hkept⟩ := hrows _ hmem
    refine ⟨fun column hcolumn => ?_, fun id hid hedges column => ?_⟩
    · exact (houtside column hcolumn).trans (hextend r column)
    · have hsame := hkept id ((hextend r "id").trans hid) (hnot id hedges)
      exact (congrArg (Row.cell · column) hsame).trans (hextend r column)

theorem prepare_bare {schema : Schema} (hdb : db.Consistent)
    (halone : ∀ entry ∈ sideTables, db.table? entry.1 = none)
    (hready : db.prepare schema = .ok ready) : ready.Bare := by
  obtain ⟨later, ids, hcompletes, hrefills, -⟩ := prepare_refills hdb hready
  intro entry hentry
  have hlayout : entry ∈ layoutTables schema := by
    simp only [sideTables, List.mem_cons, List.not_mem_nil, or_false] at hentry
    rcases hentry with rfl | rfl | rfl <;> simp [layoutTables]
  have hother : ∀ entry ∈ sideTables, Text.sameLetters resources entry.1 = false := by
    decide
  have hquotes : ∀ entry ∈ sideTables, ∀ c ∈ entry.2, '"' ∉ c.1.toList := by
    decide
  obtain ⟨u, hu, hrows, hhas⟩ := hcompletes.made hlayout (halone entry hentry)
  exact ⟨u, (hrefills.others (hother entry hentry)).trans hu, hrows,
    fun c hc => hhas c hc (hquotes entry hentry c hc)⟩

/-- What is read of the resources of a database that had nothing else, once it was brought to the
layout: under the id of a row, if the table spells `id` so, a resource that shows the row as the
table spells its columns.  Of rows with one id the last one is read. -/
theorem prepare_hydrates {before after : List Row} {old : Row} {id : String}
    (hdb : db.Consistent) (ht : db.table? resources = some t)
    (halone : ∀ entry ∈ sideTables, db.table? entry.1 = none)
    (hnames : ∀ c ∈ t.columns, ∃ name ∈ resourceNames, Text.sameLetters c.name name = true)
    (hready : db.prepare .aardvark = .ok ready) (hrows : t.rows = before ++ old :: after)
    (hid : old.cell "id" = .text id) (hlast : ∀ other ∈ after, other.cell "id" ≠ .text id) :
    ∃ u, ready.table? resources = some u ∧ ∃ new ∈ u.rows, t.Carried old new ∧
      ∃ r, t.Shows new r ∧
        ready.hydrate [id] = .ok (if t.Spells "id" ∨ id = "" then [r] else []) := by
  obtain ⟨u, hu, hmigrated⟩ := prepare_migrates hdb ht hready
  obtain ⟨f, hf, hcarried⟩ := hmigrated.rows
  have hkept : ∀ r ∈ t.rows, (f r).cell "id" = r.cell "id" := by
    intro r hr
    exact (hcarried r hr).cells "id" (by decide)
  have hold : old ∈ t.rows := by
    rw [hrows]
    exact List.mem_append_right _ List.mem_cons_self
  have hnew : f old ∈ u.rows := by
    rw [hf]
    exact List.mem_map_of_mem hold
  have hthumbnail := hmigrated.thumbnail_not_mem hnames
  have hshows := hmigrated.consistent.shows_readRow hnew hthumbnail
  have hsplit : u.rows = before.map f ++ f old :: after.map f := by
    rw [hf, hrows, List.map_append, List.map_cons]
  have hlast' : ∀ other ∈ after.map f, other.cell "id" ≠ .text id := by
    refine List.forall_mem_map.mpr fun other hother => ?_
    rw [hkept other]
    · exact hlast other hother
    · rw [hrows]
      exact List.mem_append_right _ (List.mem_cons_of_mem _ hother)
  have hread := hydrate_row (prepare_bare hdb halone hready) hmigrated.consistent hu hthumbnail
    hsplit ((hkept old hold).trans hid) hlast'
  have hspells : u.Spells "id" ↔ t.Spells "id" := by
    rw [Table.Spells, Table.Spells, hmigrated.spelling List.mem_cons_self]
  simp only [hspells] at hread
  exact ⟨u, hu, f old, hnew, hcarried old hold, u.readRow (f old),
    hshows.of_migrated hmigrated, hread⟩

/-! A table that spells its title or its id in capitals -/

def capitalsSource (id title : String) : TableSource where
  name := resources
  columns := [(id, "TEXT PRIMARY KEY"), (title, "TEXT")]
  rows := [[.text "a", .text "T"]]
  unique := []

def capitals (id title : String) : Table where
  name := resources
  columns := [⟨id, .text, false, .null⟩, ⟨title, .text, false, .null⟩]
  rowKey := none
  rows := [⟨[("id", .text "a"), (titleField, .text "T")]⟩]
  indexes := [⟨"", [.column id], true⟩]
  rejections := []

private theorem ofSources_capitals :
    ofSources [capitalsSource "id" "DCT_TITLE_S"] = .ok ⟨[capitals "id" "DCT_TITLE_S"]⟩ ∧
      ofSources [capitalsSource "ID" titleField] = .ok ⟨[capitals "ID" titleField]⟩ := by
  decide +kernel

private theorem hydrate_capitalTitle :
    (((⟨[capitals "id" "DCT_TITLE_S"]⟩ : Database).prepare .aardvark).bind fun ready =>
      (ready.hydrate ["a"]).map fun found =>
        found.map fun r => (r.id, r.scalar? titleField, r.scalar? "DCT_TITLE_S")) =
      .ok [("a", none, some "T")] := by
  decide +kernel

theorem prepare_hydrates_capitals : ∃ db t ready old,
    ofSources [capitalsSource "id" "DCT_TITLE_S"] = .ok db ∧ db.table? resources = some t ∧
    (∀ entry ∈ sideTables, db.table? entry.1 = none) ∧
    (∀ c ∈ t.columns, ∃ name ∈ resourceNames, Text.sameLetters c.name name = true) ∧
    db.prepare .aardvark = .ok ready ∧ t.rows = [] ++ old :: [] ∧ old.cell "id" = .text "a" ∧
    ∃ u, ready.table? resources = some u ∧ ∃ new ∈ u.rows, t.Carried old new ∧
      ∃ r, t.Shows new r ∧
        ready.hydrate ["a"] = .ok (if t.Spells "id" ∨ "a" = "" then [r] else []) := by
  obtain ⟨ready, hready, -⟩ := bind_eq_ok.mp hydrate_capitalTitle
  have ht : (⟨[capitals "id" "DCT_TITLE_S"]⟩ : Database).table? resources =
      some (capitals "id" "DCT_TITLE_S") := rfl
  have halone : ∀ entry ∈ sideTables,
      (⟨[capitals "id" "DCT_TITLE_S"]⟩ : Database).table? entry.1 = none := by
    decide
  have hnames : ∀ c ∈ (capitals "id" "DCT_TITLE_S").columns, ∃ name ∈ resourceNames,
      Text.sameLetters c.name name = true := by
    decide
  have hrows : (capitals "id" "DCT_TITLE_S").rows =
      [] ++ ⟨[("id", .text "a"), (titleField, .text "T")]⟩ :: [] := rfl
  refine ⟨_, _, ready, _, ofSources_capitals.1, ht, halone, hnames, hready, hrows, rfl, ?_⟩
  exact prepare_hydrates (consistent_ofSources ofSources_capitals.1) ht halone hnames hready hrows
    rfl fun other hother => absurd hother List.not_mem_nil

/-- Under its own name a title spelled in capitals is not read, and of a table that spells its id so
the id that is listed is not found. -/
theorem prepare_losesCapitals :
    (ofSources [capitalsSource "id" "DCT_TITLE_S"] = .ok ⟨[capitals "id" "DCT_TITLE_S"]⟩ ∧
      ofSources [capitalsSource "ID" titleField] = .ok ⟨[capitals "ID" titleField]⟩) ∧
    (((⟨[capitals "id" "DCT_TITLE_S"]⟩ : Database).prepare .aardvark).bind fun ready =>
      (ready.hydrate ["a"]).map fun found =>
        found.map fun r => (r.id, r.scalar? titleField, r.scalar? "DCT_TITLE_S")) =
      .ok [("a", none, some "T")] ∧
    (((⟨[capitals "ID" titleField]⟩ : Database).prepare .aardvark).bind fun ready =>
      ready.allIds.bind fun ids => (ready.hydrate ids).map fun found => (ids, found.length)) =
      .ok (["a"], 0) := by
  refine ⟨ofSources_capitals, hydrate_capitalTitle, ?_⟩
  decide +kernel

end Database

end Gazetteer
