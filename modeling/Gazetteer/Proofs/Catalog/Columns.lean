import Mathlib
import Gazetteer.Catalog.Hydrate
import Gazetteer.Proofs.Dict
import Gazetteer.Schema.Aardvark
/-!
What the named cells of a row make of a resource: the id and the thumbnail stand under names of
their own, and every other name that is none of the envelope is that of a scalar field.
-/

namespace Gazetteer.Database

open Layout

/-- Whether a column holds a scalar field, by its name. -/
def IsFieldColumn (name : String) : Prop :=
  name ≠ "id" ∧ name ≠ thumbnailColumn ∧ name ∉ geometryColumns

instance : DecidablePred IsFieldColumn := fun name =>
  inferInstanceAs (Decidable (name ≠ "id" ∧ name ≠ thumbnailColumn ∧ name ∉ geometryColumns))

theorem isFieldColumn_of_scalar :
    ∀ field ∈ Schema.scalarColumns .aardvark, IsFieldColumn field := by
  decide

def resourceNames : List String :=
  (resourceColumns .aardvark).map Prod.fst

theorem resourceNames_eq :
    resourceNames = "id" :: (Schema.scalarColumns .aardvark ++ geometryColumns) := by
  rfl

theorem scalar_mem_resourceNames {field : String}
    (h : field ∈ Schema.scalarColumns .aardvark) : field ∈ resourceNames := by
  rw [resourceNames_eq]
  exact List.mem_cons_of_mem _ (List.mem_append_left _ h)

theorem geometry_mem_resourceNames {column : String} (h : column ∈ geometryColumns) :
    column ∈ resourceNames := by
  rw [resourceNames_eq]
  exact List.mem_cons_of_mem _ (List.mem_append_right _ h)

def withShown (scalars : Dict String) (name : String) (c : Cell) : Dict String :=
  match c.shown? with
  | some text => if IsFieldColumn name then scalars.insert name text else scalars
  | none => scalars

theorem get?_withShown (scalars : Dict String) (name : String) (c : Cell) (field : String) :
    (withShown scalars name c).get? field =
      if IsFieldColumn field ∧ field = name then c.shown?.or (scalars.get? field)
      else scalars.get? field := by
  rw [withShown]
  cases c.shown? with
  | none => simp
  | some text =>
      by_cases hname : IsFieldColumn name
      · by_cases hfield : field = name
        · subst hfield
          simp [hname]
        · simp [hname, hfield, Dict.get?_insert]
      · by_cases hfield : field = name
        · subst hfield
          simp [hname]
        · simp [hname, hfield]

theorem setColumn_eq (r : Resource) (name : String) (c : Cell) : setColumn r name c = { r with
    id := if name = "id" then c.shown?.getD r.id else r.id
    thumbnail := if name = thumbnailColumn then c.shown?.or r.thumbnail else r.thumbnail
    scalars := withShown r.scalars name c } := by
  have hid : "id" ∉ geometryColumns := by decide
  have hthumbnail : thumbnailColumn ∉ geometryColumns := by decide
  have hapart : thumbnailColumn ≠ "id" := by decide
  rw [setColumn, withShown]
  cases hshown : c.shown? with
  | none => simp
  | some text =>
      by_cases hgeometry : name ∈ geometryColumns
      · have hname : name ≠ "id" ∧ name ≠ thumbnailColumn :=
          ⟨fun h => hid (h ▸ hgeometry), fun h => hthumbnail (h ▸ hgeometry)⟩
        simp [hgeometry, IsFieldColumn, hname]
      · by_cases hname : name = "id"
        · subst hname
          simp [hgeometry, IsFieldColumn, hapart.symm]
        · by_cases hthumb : name = thumbnailColumn
          · subst hthumb
            simp [hgeometry, IsFieldColumn, hapart]
          · simp [hgeometry, IsFieldColumn, hname, hthumb, Resource.setScalar]

theorem foldl_setColumn {entries : List (String × Cell)} (h : (entries.map Prod.fst).Nodup)
    (start : Resource) :
    ∃ scalars : Dict String,
      entries.foldl (fun r entry => setColumn r entry.1 entry.2) start = { start with
        id := ((findEntry "id" entries).bind Cell.shown?).getD start.id
        thumbnail := ((findEntry thumbnailColumn entries).bind Cell.shown?).or start.thumbnail
        scalars := scalars } ∧
      ∀ field, scalars.get? field =
        (if IsFieldColumn field then (findEntry field entries).bind Cell.shown? else none).or
          (start.scalars.get? field) := by
  induction entries generalizing start with
  | nil => exact ⟨start.scalars, rfl, fun field => by simp [findEntry]⟩
  | cons entry rest ih =>
      obtain ⟨name, c⟩ := entry
      obtain ⟨hnew, hrest⟩ := List.nodup_cons.mp h
      have hnone : findEntry name rest = none := findEntry_eq_none_iff.mpr hnew
      obtain ⟨scalars, hscalars, hget⟩ := ih hrest (setColumn start name c)
      have hid : ((findEntry "id" rest).bind Cell.shown?).getD
          (if name = "id" then c.shown?.getD start.id else start.id) =
            ((findEntry "id" ((name, c) :: rest)).bind Cell.shown?).getD start.id := by
        rw [findEntry_cons]
        by_cases hname : name = "id"
        · subst hname
          simp [hnone]
        · simp [hname]
      have hthumbnail : ((findEntry thumbnailColumn rest).bind Cell.shown?).or
          (if name = thumbnailColumn then c.shown?.or start.thumbnail else start.thumbnail) =
            ((findEntry thumbnailColumn ((name, c) :: rest)).bind Cell.shown?).or
              start.thumbnail := by
        rw [findEntry_cons]
        by_cases hname : name = thumbnailColumn
        · subst hname
          simp [hnone]
        · simp [hname]
      refine ⟨scalars, ?_, fun field => ?_⟩
      · rw [List.foldl_cons, hscalars, setColumn_eq, hid, hthumbnail]
      · rw [hget, setColumn_eq, get?_withShown, findEntry_cons]
        by_cases hfield : name = field
        · subst hfield
          by_cases hname : IsFieldColumn name <;> simp [hname, hnone]
        · simp [hfield, Ne.symm hfield]

/-! Rows with their thumbnails -/

variable {names : List String}

theorem findEntry_named (cell : String → Cell) (thumbnail : Cell) {column : String}
    (hcolumn : column ≠ thumbnailColumn) :
    findEntry column (names.map (fun name => (name, cell name)) ++ [(thumbnailColumn, thumbnail)]) =
      if column ∈ names then some (cell column) else none := by
  have hnone : findEntry column [(thumbnailColumn, thumbnail)] = none :=
    findEntry_eq_none_iff.mpr (by simpa using hcolumn)
  rw [findEntry_append, findEntry_map_name, hnone, Option.or_none]

private theorem envelopeOfCells_named (cell : String → Cell) (thumbnail : Cell) :
    envelopeOfCells (names.map (fun name => (name, cell name)) ++ [(thumbnailColumn, thumbnail)]) =
      envelopeOfCells (names.map fun name => (name, cell name)) := by
  have hminX : "geom_minx" ≠ thumbnailColumn := by decide
  have hminY : "geom_miny" ≠ thumbnailColumn := by decide
  have hmaxX : "geom_maxx" ≠ thumbnailColumn := by decide
  have hmaxY : "geom_maxy" ≠ thumbnailColumn := by decide
  simp only [envelopeOfCells, findEntry_named cell thumbnail hminX,
    findEntry_named cell thumbnail hminY, findEntry_named cell thumbnail hmaxX,
    findEntry_named cell thumbnail hmaxY, findEntry_map_name]

/-- What a row is read as: the columns named otherwise than the id, the thumbnail and the envelope
are fields. -/
theorem resourceOfCells_named (hnames : names.Nodup) (hthumbnail : thumbnailColumn ∉ names)
    (cell : String → Cell) (thumbnail : Cell) :
    ∃ scalars : Dict String,
      resourceOfCells
        (names.map (fun name => (name, cell name)) ++ [(thumbnailColumn, thumbnail)]) =
          ⟨if "id" ∈ names then (cell "id").shown?.getD "" else "", scalars, .empty, [],
            envelopeOfCells (names.map fun name => (name, cell name)), thumbnail.shown?⟩ ∧
      ∀ field, scalars.get? field =
        if IsFieldColumn field ∧ field ∈ names then (cell field).shown? else none := by
  have hkeys : ((names.map (fun name => (name, cell name)) ++
      [(thumbnailColumn, thumbnail)]).map Prod.fst).Nodup := by
    rw [List.map_append, List.map_map]
    have hself : names.map (Prod.fst ∘ fun name => (name, cell name)) = names := List.map_id names
    rw [hself]
    exact hnames.append (List.nodup_singleton _) (List.disjoint_singleton.mpr hthumbnail)
  obtain ⟨scalars, hscalars, hget⟩ := foldl_setColumn hkeys (.ofId "")
  have hid : findEntry "id"
      (names.map (fun name => (name, cell name)) ++ [(thumbnailColumn, thumbnail)]) =
        if "id" ∈ names then some (cell "id") else none :=
    findEntry_named cell thumbnail (by decide)
  have hlast : findEntry thumbnailColumn
      (names.map (fun name => (name, cell name)) ++ [(thumbnailColumn, thumbnail)]) =
        some thumbnail := by
    rw [findEntry_append, findEntry_map_name, if_neg hthumbnail, Option.none_or]
    simp [findEntry]
  refine ⟨scalars, ?_, fun field => ?_⟩
  · simp only [resourceOfCells, hscalars, hid, hlast, envelopeOfCells_named, Option.bind_some]
    by_cases hmem : "id" ∈ names <;> simp [hmem, Resource.ofId]
  · have hstart : (Resource.ofId "").scalars.get? field = none := rfl
    rw [hget, hstart, Option.or_none]
    by_cases hfield : IsFieldColumn field
    · rw [if_pos hfield, findEntry_named cell thumbnail hfield.2.1]
      by_cases hmem : field ∈ names <;> simp [hfield, hmem]
    · simp [hfield]

end Gazetteer.Database
