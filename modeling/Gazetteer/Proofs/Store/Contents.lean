import Mathlib
import Gazetteer.Proofs.Store.Table
import Gazetteer.Schema.Aardvark
import Gazetteer.Store.Backfill
/-!
Databases in the layout of a catalog: six tables, of which only the rows vary.
-/

namespace Gazetteer

open Layout

inductive Part
  | resources
  | attributes
  | distributions
  | searchTexts
  | thumbnails
  | staticMaps
deriving DecidableEq

namespace Part

def name : Part → String
  | resources => Layout.resources
  | attributes => Layout.attributes
  | distributions => Layout.distributions
  | searchTexts => Layout.searchTexts
  | thumbnails => Layout.thumbnails
  | staticMaps => Layout.staticMaps

def columns : Part → List (String × Declaration)
  | resources => resourceColumns .aardvark
  | attributes => attributeColumns
  | distributions => distributionColumns
  | searchTexts => searchTextColumns
  | thumbnails => thumbnailColumns ++ [("updated_at", plain .text)]
  | staticMaps => staticMapColumns ++ [("updated_at", plain .text)]

def keyIndex : Index :=
  ⟨"", [.column "id"], true⟩

def indexes : Part → List Index
  | resources => [keyIndex, geometryIndex]
  | attributes =>
      [plainIndex "idx_resources_mv_field_value" ["field", "value"],
        plainIndex "idx_resources_mv_id" ["id"]]
  | distributions => [plainIndex "idx_distributions_resource" ["resource_id"], labeledIndex]
  | searchTexts => [keyIndex]
  | thumbnails => [keyIndex]
  | staticMaps => [keyIndex]

def table (p : Part) (rows : List Row) : Table where
  name := p.name
  columns := p.columns.map fun c => c.2.column c.1
  rowKey := none
  rows := rows
  indexes := p.indexes
  rejections := []

def row (p : Part) (values : List (String × Cell)) : Row :=
  (p.table []).newRow values

def column? (p : Part) (name : String) : Option Column :=
  (p.table []).column? name

/-- The tables in the order in which they came into being. -/
def all : List Part :=
  [resources, attributes, distributions, searchTexts, thumbnails, staticMaps]

theorem resources_eq_name : Layout.resources = resources.name := rfl

theorem attributes_eq_name : Layout.attributes = attributes.name := rfl

theorem distributions_eq_name : Layout.distributions = distributions.name := rfl

theorem searchTexts_eq_name : Layout.searchTexts = searchTexts.name := rfl

theorem thumbnails_eq_name : Layout.thumbnails = thumbnails.name := rfl

theorem staticMaps_eq_name : Layout.staticMaps = staticMaps.name := rfl

theorem mem_all (p : Part) : p ∈ all := by
  cases p <;> decide

@[simp] theorem table_rows (p : Part) (rows : List Row) : (p.table rows).rows = rows := rfl

@[simp] theorem table_indexes (p : Part) (rows : List Row) :
    (p.table rows).indexes = p.indexes := rfl

theorem newRow_table (p : Part) (rows : List Row) (values : List (String × Cell)) :
    (p.table rows).newRow values = p.row values := rfl

theorem affinity_table (p : Part) (rows : List Row) (name : String) :
    (p.table rows).affinity name = ((p.column? name).map Column.affinity).getD .none := by
  have hcolumn : (p.table rows).column? name = p.column? name := rfl
  rw [Table.affinity, hcolumn]
  cases p.column? name <;> rfl

/-! Columns -/

private theorem nodup_columns (p : Part) : (p.columns.map fun c => Text.fold c.1).Nodup := by
  cases p <;> decide

theorem sameLetters_column {p : Part} {a b : String} (ha : a ∈ p.columns.map Prod.fst)
    (hb : b ∈ p.columns.map Prod.fst) : Text.sameLetters a b = (a == b) := by
  have hnodup : ((p.columns.map Prod.fst).map Text.fold).Nodup := by
    rw [List.map_map]
    exact p.nodup_columns
  rw [Bool.eq_iff_iff, beq_iff_eq, Text.sameLetters, beq_iff_eq]
  exact ⟨fun h => List.inj_on_of_nodup_map hnodup ha hb h, congrArg Text.fold⟩

theorem column?_of_mem {p : Part} {name : String} {d : Declaration} (h : (name, d) ∈ p.columns) :
    p.column? name = some (d.column name) := by
  rw [column?, Table.column?, table, List.find?_map]
  have hsame : ∀ other ∈ p.columns,
      Text.sameLetters other.1 name = (Text.fold other.1 == Text.fold name) := fun _ _ => rfl
  cases hfind : p.columns.find? fun other => Text.sameLetters other.1 name with
  | none =>
      have hself := List.find?_eq_none.mp hfind _ h
      rw [Text.sameLetters_refl] at hself
      exact absurd rfl hself
  | some other =>
      have hname := List.find?_some hfind
      rw [hsame other (List.mem_of_find?_eq_some hfind), beq_iff_eq] at hname
      have heq := List.inj_on_of_nodup_map p.nodup_columns (List.mem_of_find?_eq_some hfind) h hname
      simp only [Function.comp_def, Declaration.column, hfind, heq, Option.map_some]

/-! The columns that tell whose a row is -/

theorem id_resources : ("id", key) ∈ resources.columns := .head _

theorem id_attributes : ("id", requiredText) ∈ attributes.columns := .head _

theorem id_distributions : ("resource_id", requiredText) ∈ distributions.columns := .head _

theorem id_searchTexts : ("id", key) ∈ searchTexts.columns := .head _

theorem id_thumbnails : ("id", key) ∈ thumbnails.columns := .head _

theorem id_staticMaps : ("id", key) ∈ staticMaps.columns := .head _

theorem cell_row {p : Part} {values : List (String × Cell)} {name : String} {d : Declaration}
    (hvalues : ∀ value ∈ values, value.1 ∈ p.columns.map Prod.fst) (h : (name, d) ∈ p.columns) :
    (p.row values).cell name = ((findEntry name values).getD d.fallback).store d.affinity := by
  have hfind : values.find? (fun value => Text.sameLetters value.1 name) =
      values.find? fun value => value.1 == name :=
    List.find?_congr fun value hvalue =>
      sameLetters_column (hvalues value hvalue) (List.mem_map_of_mem h)
  have hcolumn : (p.table []).column? name = some (d.column name) := column?_of_mem h
  rw [row, Table.cell_newRow, hcolumn, findEntry, ← hfind]
  rfl

theorem has_of_mem {p : Part} {name : String} {d : Declaration} (h : (name, d) ∈ p.columns) :
    (p.column? name).isSome = true := by
  rw [column?_of_mem h]
  rfl

theorem has_of_name {p : Part} {name : String} (h : name ∈ p.columns.map Prod.fst) :
    (p.column? name).isSome = true := by
  obtain ⟨⟨_, d⟩, hd, rfl⟩ := List.mem_map.mp h
  exact has_of_mem hd

end Part

abbrev Contents := Part → List Row

namespace Contents

def database (c : Contents) : Database :=
  ⟨Part.all.map fun p => p.table (c p)⟩

def set (c : Contents) (p : Part) (rows : List Row) : Contents :=
  Function.update c p rows

@[simp] theorem set_self (c : Contents) (p : Part) (rows : List Row) : c.set p rows p = rows := by
  simp [set]

@[simp] theorem set_of_ne (c : Contents) {p q : Part} (rows : List Row) (h : q ≠ p) :
    c.set p rows q = c q := by
  simp [set, h]

private theorem sameLetters_name (p q : Part) : Text.sameLetters p.name q.name = decide (p = q) := by
  have hnodup : (Part.all.map fun p => Text.fold p.name).Nodup := by decide
  rw [Bool.eq_iff_iff, decide_eq_true_eq, Text.sameLetters, beq_iff_eq]
  constructor
  · intro h
    exact List.inj_on_of_nodup_map hnodup p.mem_all q.mem_all h
  · rintro rfl
    rfl

theorem table?_database (c : Contents) (p : Part) :
    c.database.table? p.name = some (p.table (c p)) := by
  have hname (q : Part) : Text.sameLetters (q.table (c q)).name p.name = decide (q = p) :=
    sameLetters_name q p
  rw [Database.table?, database, List.find?_map]
  cases p <;> simp [Part.all, hname]

@[simp] theorem table_database (c : Contents) (p : Part) :
    c.database.table p.name = .ok (p.table (c p)) := by
  rw [Database.table, table?_database]

@[simp] theorem rows_database (c : Contents) (p : Part) : c.database.rows p.name = c p := by
  rw [Database.rows, table?_database]
  rfl

@[simp] theorem affinity_database (c : Contents) (p : Part) (column : String) :
    c.database.affinity p.name column = ((p.column? column).map Column.affinity).getD .none := by
  rw [Database.affinity, table?_database]
  exact p.affinity_table (c p) column

theorem put_database (c : Contents) (p : Part) (rows : List Row) :
    c.database.put (p.table rows) = (c.set p rows).database := by
  have hname (q : Part) : Text.sameLetters (q.table (c q)).name (p.table rows).name =
      decide (q = p) := sameLetters_name q p
  cases p <;>
    simp [Database.put, database, Part.all, Database.put.replaceFirst, hname]

theorem modify_database {α : Type} (c : Contents) (p : Part)
    {statement : Table → Except Fault (Table × α)} {rows : List Row} {result : α}
    (h : statement (p.table (c p)) = .ok (p.table rows, result)) :
    c.database.modify p.name statement = .ok ((c.set p rows).database, result) := by
  rw [Database.modify, table_database]
  simp only [h, put_database]

theorem need_database (c : Contents) {wanted : List (String × String)}
    (h : ∀ entry ∈ wanted, ∃ p : Part, p.name = entry.1 ∧ (p.column? entry.2).isSome = true) :
    c.database.need wanted = .ok () := by
  induction wanted with
  | nil => rfl
  | cons entry rest ih =>
      obtain ⟨p, hname, hcolumn⟩ := h entry List.mem_cons_self
      have hhas : (p.table (c p)).has entry.2 = true := hcolumn
      simp only [Database.need, ← hname, table_database, hhas, if_true]
      exact ih fun other hother => h other (List.mem_cons_of_mem _ hother)

/-! Statements -/

theorem insert_database (c : Contents) (p : Part) (conflict : Conflict)
    {values : List (String × Cell)}
    (hneed : ∀ name ∈ values.map Prod.fst, (p.column? name).isSome = true)
    (hmissing : (p.table (c p)).missing? (p.row values) = none)
    (hcollision : (p.table (c p)).collision? (c p) (p.row values) = none) :
    c.database.insert p.name conflict values =
      .ok ((c.set p (c p ++ [p.row values])).database, true) := by
  have hhas : ∀ name ∈ values.map Prod.fst, (p.table (c p)).has name = true := hneed
  refine modify_database c p ?_
  rw [Table.insert_eq rfl rfl hhas hmissing]
  simp only [Part.newRow_table, Part.table_rows, hcollision]
  rfl

/-- A row that breaks a unique key is left out where that is asked for. -/
theorem insert_ignored (c : Contents) (p : Part) {values : List (String × Cell)}
    (hneed : ∀ name ∈ values.map Prod.fst, (p.column? name).isSome = true)
    (hmissing : (p.table (c p)).missing? (p.row values) = none) {i : Index}
    (hcollision : (p.table (c p)).collision? (c p) (p.row values) = some i) :
    c.database.insert p.name .ignore values = .ok (c.database, false) := by
  have hhas : ∀ name ∈ values.map Prod.fst, (p.table (c p)).has name = true := hneed
  have hsame : c.set p (c p) = c := by simp [set]
  conv => rhs; rw [← hsame]
  refine modify_database c p ?_
  rw [Table.insert_eq rfl rfl hhas hmissing]
  simp only [Part.newRow_table, Part.table_rows, hcollision]

theorem delete_database (c : Contents) (p : Part) {column : String}
    (hneed : (p.column? column).isSome = true) (value : String) :
    c.database.delete p.name column value =
      .ok ((c.set p ((p.table (c p)).without column value)).database,
        ((p.table (c p)).select column value).length) := by
  have hhas : (p.table (c p)).has column = true := hneed
  exact modify_database c p (Table.delete_eq rfl hhas value)

/-! Rows by a column of texts -/

variable {α : Type}

private theorem wanted_text {p : Part} {column : String} {d : Declaration}
    (hcolumn : (column, d) ∈ p.columns) (htext : d.affinity = .text) (rows : List Row)
    (value : String) : (p.table rows).wanted column value = .text value := by
  have hfind := Part.column?_of_mem hcolumn
  rw [Table.wanted, Part.affinity_table, hfind]
  simp only [Option.map_some, Option.getD_some, Declaration.column, htext]
  rfl

theorem select_text {p : Part} {column : String} {d : Declaration}
    (hcolumn : (column, d) ∈ p.columns) (htext : d.affinity = .text) {row : α → Row}
    {key : α → String} (hcell : ∀ a, (row a).cell column = .text (key a)) (items : List α)
    (value : String) :
    (p.table (items.map row)).select column value =
      (items.filter fun a => key a == value).map row := by
  rw [Table.select, wanted_text hcolumn htext, Part.table_rows, List.filter_map]
  simp only [Function.comp_def, hcell, Cell.equals_text]

theorem without_text {p : Part} {column : String} {d : Declaration}
    (hcolumn : (column, d) ∈ p.columns) (htext : d.affinity = .text) {row : α → Row}
    {key : α → String} (hcell : ∀ a, (row a).cell column = .text (key a)) (items : List α)
    (value : String) :
    (p.table (items.map row)).without column value =
      (items.filter fun a => key a != value).map row := by
  rw [Table.without, wanted_text hcolumn htext, Part.table_rows, List.filter_map]
  simp only [Function.comp_def, hcell, Cell.equals_text, bne]

theorem affinity_of_mem (c : Contents) {p : Part} {column : String} {d : Declaration}
    (hcolumn : (column, d) ∈ p.columns) : c.database.affinity p.name column = d.affinity := by
  have hfind := Part.column?_of_mem hcolumn
  rw [affinity_database, hfind]
  rfl

theorem belonging_text (c : Contents) {p : Part} {d : Declaration}
    (hcolumn : ("id", d) ∈ p.columns) (htext : d.affinity = .text) {row : α → Row}
    {keyOf : α → String} (hcell : ∀ a, (row a).cell "id" = .text (keyOf a)) {items : List α}
    (hrows : c p = items.map row) {r : Row} {id : String} (hid : r.cell "id" = .text id) :
    c.database.belonging p.name r = (items.filter fun a => keyOf a == id).map row := by
  rw [Database.belonging, Part.resources_eq_name, affinity_of_mem c hcolumn,
    affinity_of_mem c Part.id_resources, htext, rows_database, hrows, List.filter_map, hid]
  simp only [Function.comp_def, hcell]
  exact congrArg (List.map row) (List.filter_congr fun a _ => Cell.equals_text (keyOf a) id)

end Contents

end Gazetteer
