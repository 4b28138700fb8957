import Mathlib
import Gazetteer.Catalog.Write
import Gazetteer.Proofs.Dict
import Gazetteer.Proofs.Geometry.Envelope
import Gazetteer.Proofs.Schema
/-!
The rows that are stored for a resource, for a distribution and for a cached address, and what
stands in their cells.
-/

namespace Gazetteer

open Layout

structure Placement where
  id : String
  distribution : Distribution
  position : Int
deriving DecidableEq

namespace Resource

def envelope? (r : Resource) : Option Envelope :=
  (r.boxText?.bind Envelope.parse?).map Envelope.stored

def scalarRow (r : Resource) : Row :=
  Part.resources.row (Database.scalarCells r)

def attributes (r : Resource) : List (String × String × String) :=
  (Database.attributePairs r).map (r.id, ·)

theorem id_of_mem_attributes {r : Resource} {entry : String × String × String}
    (h : entry ∈ r.attributes) : entry.1 = r.id := by
  obtain ⟨pair, -, rfl⟩ := List.mem_map.mp h
  rfl

theorem mem_attributes {r : Resource} {entry : String × String × String} :
    entry ∈ r.attributes ↔
      entry.1 = r.id ∧ entry.2.2 ∈ r.values entry.2.1 ∧ Text.allBlank entry.2.2 = false := by
  simp only [attributes, Database.attributePairs, List.mem_map, List.mem_flatMap,
    Database.keptValues, List.mem_eraseDups, List.mem_filter, Bool.not_eq_true']
  constructor
  · rintro ⟨_, ⟨⟨field, given⟩, hgiven, value, ⟨hvalue, hblank⟩, rfl⟩, rfl⟩
    have hget : r.repeatables.get? field = some given := Dict.mem_entries_iff.mp hgiven
    refine ⟨rfl, ?_, hblank⟩
    rw [values, hget]
    exact hvalue
  · rintro ⟨hid, hvalue, hblank⟩
    obtain ⟨id, field, value⟩ := entry
    cases hget : r.repeatables.get? field with
    | none =>
        rw [values, hget] at hvalue
        exact absurd hvalue List.not_mem_nil
    | some given =>
        rw [values, hget] at hvalue
        exact ⟨_, ⟨(field, given), Dict.mem_entries_iff.mpr hget, value, ⟨hvalue, hblank⟩, rfl⟩,
          by rw [← hid]⟩

theorem nodup_attributes (r : Resource) : r.attributes.Nodup := by
  have hpairs : (Database.attributePairs r).Nodup := by
    refine List.nodup_flatMap.mpr ⟨fun entry _ => ?_, ?_⟩
    · exact (nodup_eraseDups _).map fun a b h => (Prod.mk.inj h).2
    · refine r.repeatables.ascending.imp fun {a b} hlt pair ha hb => ?_
      obtain ⟨_, -, rfl⟩ := List.mem_map.mp ha
      obtain ⟨_, -, heq⟩ := List.mem_map.mp hb
      exact absurd ((Prod.mk.inj heq).1 ▸ hlt) (String.lt_irrefl _)
  exact hpairs.map fun a b h => (Prod.mk.inj h).2

def searchRow (r : Resource) : Row :=
  Part.searchTexts.row
    [("id", .text r.id), ("content", .text (Schema.searchContent .aardvark r))]

end Resource

def attributeRow (entry : String × String × String) : Row :=
  Part.attributes.row
    [("id", .text entry.1), ("field", .text entry.2.1), ("value", .text entry.2.2)]

def Placement.row (p : Placement) : Row :=
  Part.distributions.row (Database.distributionCells p.id p.distribution p.position)

def cacheRow (p : Part) (column : String) (entry : String × String) : Row :=
  p.row [("id", .text entry.1), (column, .text entry.2), ("updated_at", Database.stamp)]

/-! Cells -/

private theorem cell_text {p : Part} {values : List (String × Cell)} {column text : String}
    {d : Declaration} (hvalues : ∀ value ∈ values, value.1 ∈ p.columns.map Prod.fst)
    (hcolumn : (column, d) ∈ p.columns) (haffinity : d.affinity = .text)
    (hvalue : findEntry column values = some (.text text)) :
    (p.row values).cell column = .text text := by
  have hcell := Part.cell_row hvalues hcolumn
  rw [hcell, hvalue, haffinity]
  rfl

section

variable (entry : String × String × String)

private theorem attribute_columns (a b c : Cell) :
    ∀ value ∈ [("id", a), ("field", b), ("value", c)],
      value.1 ∈ Part.attributes.columns.map Prod.fst := by
  simp [Part.columns, attributeColumns]

@[simp] theorem attributeRow_id : (attributeRow entry).cell "id" = .text entry.1 :=
  cell_text (attribute_columns _ _ _) (.head _) rfl (by simp [findEntry])

@[simp] theorem attributeRow_field : (attributeRow entry).cell "field" = .text entry.2.1 :=
  cell_text (attribute_columns _ _ _) (.tail _ (.head _)) rfl (by simp [findEntry])

@[simp] theorem attributeRow_value : (attributeRow entry).cell "value" = .text entry.2.2 :=
  cell_text (attribute_columns _ _ _) (.tail _ (.tail _ (.head _))) rfl (by simp [findEntry])

end

namespace Placement

variable (p : Placement)

private theorem distribution_columns (id : String) (d : Distribution) (position : Int) :
    ∀ value ∈ Database.distributionCells id d position,
      value.1 ∈ Part.distributions.columns.map Prod.fst := by
  simp [Database.distributionCells, Part.columns, distributionColumns]

@[simp] theorem row_id : p.row.cell "resource_id" = .text p.id :=
  cell_text (distribution_columns _ _ _) (.head _) rfl rfl

@[simp] theorem row_relation : p.row.cell "relation_key" = .text p.distribution.relation :=
  cell_text (distribution_columns _ _ _) (.tail _ (.head _)) rfl
    (by simp [Database.distributionCells, findEntry])

@[simp] theorem row_url : p.row.cell "url" = .text p.distribution.url :=
  cell_text (distribution_columns _ _ _) (.tail _ (.tail _ (.head _))) rfl
    (by simp [Database.distributionCells, findEntry])

@[simp] theorem row_label :
    p.row.cell "label" = (p.distribution.label.map Cell.text).getD .null := by
  have hcolumn : ("label", plain .text) ∈ Part.distributions.columns :=
    .tail _ (.tail _ (.tail _ (.head _)))
  have hcell := Part.cell_row (distribution_columns p.id p.distribution p.position) hcolumn
  rw [row, hcell]
  simp only [Database.distributionCells, findEntry]
  cases p.distribution.label <;> simp [plain, Cell.store, Cell.toText]

@[simp] theorem row_position : p.row.cell "position" = .int p.position := by
  have hcolumn : ("position", zeroByDefault) ∈ Part.distributions.columns :=
    .tail _ (.tail _ (.tail _ (.tail _ (.head _))))
  have hcell := Part.cell_row (distribution_columns p.id p.distribution p.position) hcolumn
  rw [row, hcell]
  simp [Database.distributionCells, findEntry, zeroByDefault, plain, Cell.store]

end Placement

section

variable (entry : String × String)

private theorem thumbnail_columns (a b c : Cell) :
    ∀ value ∈ [("id", a), ("thumbnail_url", b), ("updated_at", c)],
      value.1 ∈ Part.thumbnails.columns.map Prod.fst := by
  simp [Part.columns, thumbnailColumns]

@[simp] theorem thumbnailRow_id :
    (cacheRow .thumbnails "thumbnail_url" entry).cell "id" = .text entry.1 :=
  cell_text (thumbnail_columns _ _ _) (.head _) rfl (by simp [findEntry])

@[simp] theorem thumbnailRow_url :
    (cacheRow .thumbnails "thumbnail_url" entry).cell "thumbnail_url" = .text entry.2 :=
  cell_text (thumbnail_columns _ _ _) (.tail _ (.head _)) rfl (by simp [findEntry])

private theorem staticMap_columns (a b c : Cell) :
    ∀ value ∈ [("id", a), ("image_url", b), ("updated_at", c)],
      value.1 ∈ Part.staticMaps.columns.map Prod.fst := by
  simp [Part.columns, staticMapColumns]

@[simp] theorem staticMapRow_id :
    (cacheRow .staticMaps "image_url" entry).cell "id" = .text entry.1 :=
  cell_text (staticMap_columns _ _ _) (.head _) rfl (by simp [findEntry])

@[simp] theorem staticMapRow_url :
    (cacheRow .staticMaps "image_url" entry).cell "image_url" = .text entry.2 :=
  cell_text (staticMap_columns _ _ _) (.tail _ (.head _)) rfl (by simp [findEntry])

end

namespace Resource

variable {r : Resource}

private theorem search_columns (a b : Cell) :
    ∀ value ∈ [("id", a), ("content", b)], value.1 ∈ Part.searchTexts.columns.map Prod.fst := by
  simp [Part.columns, searchTextColumns]

@[simp] theorem searchRow_id : r.searchRow.cell "id" = .text r.id :=
  cell_text (search_columns _ _) (.head _) rfl (by simp [findEntry])

@[simp] theorem searchRow_content :
    r.searchRow.cell "content" = .text (Schema.searchContent .aardvark r) :=
  cell_text (search_columns _ _) (.tail _ (.head _)) rfl (by simp [findEntry])

private theorem geometryCells_columns (e : Option Envelope) :
    (Database.geometryCells e).map Prod.fst = geometryColumns := by
  cases e <;> rfl

theorem scalar_columns (hr : Schema.Accepts .aardvark r) :
    ∀ value ∈ Database.scalarCells r, value.1 ∈ Part.resources.columns.map Prod.fst := by
  intro value hvalue
  rcases List.mem_cons.mp hvalue with rfl | hvalue
  · exact List.mem_cons_self
  · rcases List.mem_append.mp hvalue with hvalue | hvalue
    · obtain ⟨entry, hentry, rfl⟩ := List.mem_map.mp hvalue
      obtain ⟨hid, hscalar⟩ := hr.scalars entry.1 (List.mem_map_of_mem hentry)
      exact List.mem_map_of_mem (Schema.mem_columns_of_isScalar hscalar hid)
    · have hcolumn := List.mem_map_of_mem (f := Prod.fst) hvalue
      rw [geometryCells_columns] at hcolumn
      refine List.mem_map.mpr ⟨(value.1, plain .real), ?_, rfl⟩
      exact List.mem_cons_of_mem _ (List.mem_append_right _ (List.mem_map_of_mem hcolumn))

@[simp] theorem scalarRow_id : r.scalarRow.cell "id" = .text r.id := by
  have hcolumn : (Part.resources.table []).column? "id" = some (key.column "id") :=
    Part.column?_of_mem Part.id_resources
  rw [scalarRow, Part.row, Table.cell_newRow, hcolumn]
  simp only [Database.scalarCells, List.find?_cons, Text.sameLetters_refl, Option.map_some,
    Option.getD_some]
  rfl

theorem not_geometry_of_isScalar {field : String}
    (hfield : Schema.isScalar .aardvark field = true) : field ∉ geometryColumns := by
  have hnone : (geometryColumns.all fun column => !Schema.isScalar .aardvark column) = true := by
    decide
  intro hcolumn
  have := List.all_eq_true.mp hnone field hcolumn
  simp [hfield] at this

private theorem findEntry_scalars (r : Resource) (field : String) :
    findEntry field (r.scalars.entries.map fun entry => (entry.1, Cell.text entry.2)) =
      (r.scalar? field).map Cell.text :=
  findEntry_map_value Cell.text field

theorem scalarRow_scalar (hr : Schema.Accepts .aardvark r) {field : String}
    (hfield : Schema.isScalar .aardvark field = true) (hid : field ≠ "id") :
    r.scalarRow.cell field = ((r.scalar? field).map Cell.text).getD .null := by
  have hother : findEntry field (Database.geometryCells (r.boxText?.bind Envelope.parse?)) =
      none := by
    rw [findEntry_eq_none_iff, geometryCells_columns]
    exact not_geometry_of_isScalar hfield
  have hfind : findEntry field (Database.scalarCells r) = (r.scalar? field).map Cell.text := by
    rw [Database.scalarCells, ← List.singleton_append, findEntry_append, findEntry_append, hother,
      findEntry_scalars, Option.or_none, show findEntry field [("id", Cell.text r.id)] = none from
        findEntry_eq_none_iff.mpr (by simpa using hid), Option.none_or]
  have hcell := Part.cell_row (scalar_columns hr) (Schema.mem_columns_of_isScalar hfield hid)
  rw [scalarRow, hcell, hfind]
  cases r.scalar? field <;> rfl

private theorem findEntry_geometry (hr : Schema.Accepts .aardvark r) {column : String}
    (hcolumn : column ∈ geometryColumns) : findEntry column (Database.scalarCells r) =
      findEntry column (Database.geometryCells (r.boxText?.bind Envelope.parse?)) := by
  have hscalar : findEntry column
      (r.scalars.entries.map fun entry => (entry.1, Cell.text entry.2)) = none := by
    rw [findEntry_eq_none_iff, List.map_map]
    intro hmem
    exact not_geometry_of_isScalar (hr.scalars column hmem).2 hcolumn
  have hid : findEntry column [("id", Cell.text r.id)] = none := by
    rw [findEntry_eq_none_iff]
    intro hmem
    obtain rfl : column = "id" := List.mem_singleton.mp hmem
    exact absurd hcolumn (by decide)
  rw [Database.scalarCells, ← List.singleton_append, findEntry_append, findEntry_append, hscalar,
    hid, Option.none_or, Option.none_or]

/-- The four numbers of a row that is written are those of its envelope, or null, in whichever
table their columns hold doubles. -/
theorem newRow_geometry (hr : Schema.Accepts .aardvark r) {t : Table} {column : String}
    (hcolumn : column ∈ geometryColumns) {c : Column} (hc : t.column? column = some c)
    (hreal : c.affinity = .real) :
    (t.newRow (Database.scalarCells r)).cell column =
      (findEntry column (Database.geometryCells r.envelope?)).getD .null := by
  have hmem : column ∈ Part.resources.columns.map Prod.fst := by
    refine List.mem_map.mpr ⟨(column, plain .real), ?_, rfl⟩
    exact List.mem_cons_of_mem _ (List.mem_append_right _ (List.mem_map_of_mem hcolumn))
  have hfind : ((Database.scalarCells r).find? fun value =>
      Text.sameLetters value.1 column).map Prod.snd =
        findEntry column (Database.geometryCells (r.boxText?.bind Envelope.parse?)) := by
    rw [← findEntry_geometry hr hcolumn, findEntry]
    refine congrArg _ (List.find?_congr fun value hvalue => ?_)
    exact Part.sameLetters_column (scalar_columns hr value hvalue) hmem
  rw [Table.cell_newRow, hc]
  dsimp only
  rw [hfind, hreal, envelope?]
  simp only [geometryColumns, List.mem_cons, List.not_mem_nil, or_false] at hcolumn
  cases r.boxText?.bind Envelope.parse? with
  | none => rcases hcolumn with rfl | rfl | rfl | rfl <;> rfl
  | some e =>
      rcases hcolumn with rfl | rfl | rfl | rfl <;>
        simp [Database.geometryCells, geometryColumns, findEntry, Cell.store,
          Envelope.stored, Envelope.storedEdge] <;> split <;> rfl

theorem scalarRow_geometry (hr : Schema.Accepts .aardvark r) {column : String}
    (hcolumn : column ∈ geometryColumns) :
    r.scalarRow.cell column = (findEntry column (Database.geometryCells r.envelope?)).getD .null := by
  have hmem : (column, plain .real) ∈ Part.resources.columns :=
    List.mem_cons_of_mem _ (List.mem_append_right _ (List.mem_map_of_mem hcolumn))
  have hc : (Part.resources.table []).column? column = some ((plain .real).column column) :=
    Part.column?_of_mem hmem
  exact newRow_geometry hr hcolumn hc rfl

theorem scalarRow_box (hr : Schema.Accepts .aardvark r) :
    (r.scalarRow.cell boxField).envelope? = r.boxText?.bind Envelope.parse? := by
  have hbox := scalarRow_scalar hr
    (show Schema.isScalar .aardvark boxField = true by decide) (by decide)
  rw [hbox, boxText?]
  cases r.scalar? boxField <;> rfl

theorem scalarRow_noGeometry (hr : Schema.Accepts .aardvark r)
    (hnone : r.boxText?.bind Envelope.parse? = none) {column : String}
    (hcolumn : column ∈ geometryColumns) : r.scalarRow.cell column = .null := by
  rw [scalarRow_geometry hr hcolumn, envelope?, hnone]
  simp only [geometryColumns, List.mem_cons, List.not_mem_nil, or_false] at hcolumn
  rcases hcolumn with rfl | rfl | rfl | rfl <;> rfl

end Resource

end Gazetteer
