import Mathlib
import Gazetteer.Proofs.Catalog.Columns
import Gazetteer.Proofs.Ledger.Sound
import Gazetteer.Proofs.Store.Sort
/-!
Reading a ledger back: what the rows of a resource make of it.
-/

namespace Gazetteer

open Layout

namespace Resource

def kept? (values : List String) : Option (List String) :=
  if Database.keptValues values = [] then none else some (Database.keptValues values)

def scalarPart (r : Resource) (thumbnail : Option String) : Resource :=
  ⟨r.id, r.scalars, .empty, [], r.envelope?, thumbnail⟩

end Resource

namespace Ledger

/-- A resource of the ledger as it is read back. -/
def record (L : Ledger) (r : Resource) : Resource where
  id := r.id
  scalars := r.scalars
  repeatables := r.repeatables.filterMap Resource.kept?
  distributions := (L.placements.filter fun p => p.id == r.id).map Placement.distribution
  geometry := r.envelope?
  thumbnail := findEntry r.id L.thumbnails

def resource? (L : Ledger) (id : String) : Option Resource :=
  (L.resources.find? fun r => r.id == id).map L.record

theorem values_record (L : Ledger) (r : Resource) (field : String) :
    (L.record r).values field = Database.keptValues (r.values field) := by
  simp only [Resource.values, record, Dict.get?_filterMap]
  cases r.repeatables.get? field with
  | none => rfl
  | some given =>
      simp only [Option.bind_some, Resource.kept?, Option.getD_some]
      split
      next hnone => rw [hnone]; rfl
      next => rfl

theorem resource?_of_mem {L : Ledger} (h : L.Sound) {r : Resource} (hr : r ∈ L.resources) :
    L.resource? r.id = some (L.record r) := by
  rw [resource?, h.find? hr, Option.map_some]

end Ledger

/-! The scalar row -/

namespace Resource

variable {r : Resource}

open Database

private theorem named_cells (row : Row) (rows : List Row) :
    (Part.resources.table rows).columns.map (fun c => (c.name, row.cell c.name)) =
      resourceNames.map fun name => (name, row.cell name) := by
  simp [Part.table, Part.columns, resourceColumns, resourceNames_eq, Declaration.column,
    Function.comp_def]

private theorem envelopeOfCells_scalarRow (hr : Schema.Accepts .aardvark r) :
    envelopeOfCells (resourceNames.map fun name => (name, r.scalarRow.cell name)) =
      r.envelope? := by
  have hedge : ∀ column ∈ geometryColumns,
      findEntry column (resourceNames.map fun name => (name, r.scalarRow.cell name)) =
        some ((findEntry column (geometryCells r.envelope?)).getD .null) := by
    intro column hcolumn
    rw [findEntry_map_name, if_pos (geometry_mem_resourceNames hcolumn), scalarRow_geometry hr hcolumn]
  simp only [geometryColumns, List.forall_mem_cons] at hedge
  obtain ⟨hminX, hminY, hmaxX, hmaxY, -⟩ := hedge
  simp only [envelopeOfCells, hminX, hminY, hmaxX, hmaxY]
  cases henvelope : r.envelope? with
  | none => rfl
  | some e =>
      obtain ⟨parsed, hparsed, rfl⟩ := Option.map_eq_some_iff.mp henvelope
      obtain ⟨text, -, htext⟩ := Option.bind_eq_some_iff.mp hparsed
      have hfinite := (Envelope.isFinite_of_parse? htext).stored
      simp [geometryCells, geometryColumns, findEntry, Cell.number?, hfinite.minX, hfinite.minY,
        hfinite.maxX, hfinite.maxY]

private theorem scalars_scalarRow (hr : Schema.Accepts .aardvark r) (field : String) :
    (if IsFieldColumn field ∧ field ∈ resourceNames then (r.scalarRow.cell field).shown?
      else none) = r.scalars.get? field := by
  by_cases hscalar : field ∈ Schema.scalarColumns .aardvark
  · have hfield := isFieldColumn_of_scalar field hscalar
    have hmem : field ∈ resourceNames := scalar_mem_resourceNames hscalar
    have hisScalar : Schema.isScalar .aardvark field = true :=
      (Schema.isScalar_aardvark field).mpr (List.mem_cons_of_mem _ hscalar)
    rw [if_pos ⟨hfield, hmem⟩, scalarRow_scalar hr hisScalar hfield.1, Resource.scalar?]
    cases r.scalars.get? field <;> rfl
  · have hnot : ¬(IsFieldColumn field ∧ field ∈ resourceNames) := by
      rintro ⟨⟨hid, -, hgeometry⟩, hmem⟩
      rw [resourceNames_eq] at hmem
      rcases List.mem_cons.mp hmem with hmem | hmem
      · exact hid hmem
      · exact (List.mem_append.mp hmem).elim hscalar hgeometry
    rw [if_neg hnot]
    cases hvalue : r.scalars.get? field with
    | none => rfl
    | some value =>
        obtain ⟨hne, hisScalar⟩ := hr.scalars field (Dict.mem_keys_iff.mpr ⟨value, hvalue⟩)
        rcases List.mem_cons.mp ((Schema.isScalar_aardvark field).mp hisScalar) with h | h
        · exact absurd h hne
        · exact absurd h hscalar

theorem resourceOfCells_scalarRow (hr : Schema.Accepts .aardvark r) (rows : List Row)
    (thumbnail : Option String) :
    resourceOfCells
      ((Part.resources.table rows).columns.map (fun c => (c.name, r.scalarRow.cell c.name)) ++
        [(thumbnailColumn, (thumbnail.map Cell.text).getD .null)]) = r.scalarPart thumbnail := by
  have hnodup : resourceNames.Nodup := by decide
  have hthumbnail : thumbnailColumn ∉ resourceNames := by decide
  obtain ⟨scalars, hread, hget⟩ := resourceOfCells_named hnodup hthumbnail r.scalarRow.cell
    ((thumbnail.map Cell.text).getD .null)
  have hscalars : scalars = r.scalars :=
    Dict.ext_get? fun field => (hget field).trans (scalars_scalarRow hr field)
  have hid : "id" ∈ resourceNames := List.mem_cons_self
  rw [named_cells, hread, hscalars, if_pos hid, envelopeOfCells_scalarRow hr, scalarRow_id]
  cases thumbnail <;> rfl

end Resource

namespace Ledger

variable {L : Ledger}

open Database

/-! The rows of the wanted ids -/

private theorem hasId_text (c : Contents) {p : Part} {column : String} {d : Declaration}
    (hcolumn : (column, d) ∈ p.columns) (htext : d.affinity = .text) {r : Row} {id : String}
    (hid : r.cell column = .text id) (ids : List String) :
    c.database.hasId p.name column ids r = ids.contains id := by
  have hsame (other : String) :
      (Cell.text id).equals ((Cell.text other).against .text) = (id == other) :=
    Cell.equals_text id other
  simp only [hasId, Contents.affinity_of_mem c hcolumn, htext, hid, hsame]
  exact List.any_beq

theorem belonging_thumbnails (h : L.Sound) {r : Row} {id : String} (hid : r.cell "id" = .text id) :
    L.database.belonging Layout.thumbnails r =
      ((findEntry id L.thumbnails).map fun url =>
        cacheRow .thumbnails "thumbnail_url" (id, url)).toList := by
  have hbelonging : L.database.belonging Layout.thumbnails r =
      (L.thumbnails.filter fun entry => entry.1 == id).map
        (cacheRow .thumbnails "thumbnail_url") :=
    Contents.belonging_text L.contents Part.id_thumbnails rfl thumbnailRow_id rfl hid
  rw [hbelonging, filter_key h.thumbnails]
  cases hfind : L.thumbnails.find? fun entry => entry.1 == id with
  | none => simp [findEntry, hfind]
  | some entry =>
      obtain ⟨key, url⟩ := entry
      obtain rfl : key = id := by simpa using List.find?_some hfind
      simp [findEntry, hfind]

private theorem readScalars_database (h : L.Sound) (ids : List String) :
    L.database.readScalars ids =
      .ok ((L.resources.filter fun r => ids.contains r.id).map fun r =>
        r.scalarPart (findEntry r.id L.thumbnails)) := by
  have hneed : L.database.need
      [(Layout.thumbnails, "thumbnail_url"), (Layout.thumbnails, "id"), (Layout.resources, "id")] =
        .ok () := by
    refine Contents.need_database L.contents ?_
    simp only [List.forall_mem_cons, List.not_mem_nil, false_imp_iff, implies_true, and_true]
    exact ⟨⟨.thumbnails, rfl, Part.has_of_name (by simp [Part.columns, thumbnailColumns])⟩,
      ⟨.thumbnails, rfl, Part.has_of_mem Part.id_thumbnails⟩,
      ⟨.resources, rfl, Part.has_of_mem Part.id_resources⟩⟩
  have hrow (rows : List Row) : ∀ r ∈ L.resources,
      (L.database.joinThumbnails (Part.resources.table rows).columns r.scalarRow).map
        resourceOfCells = [r.scalarPart (findEntry r.id L.thumbnails)] := by
    intro r hr
    have hread := Resource.resourceOfCells_scalarRow (h.accepted r hr) rows
      (findEntry r.id L.thumbnails)
    rw [joinThumbnails, belonging_thumbnails h Resource.scalarRow_id, ← hread]
    cases findEntry r.id L.thumbnails with
    | none => rfl
    | some url => simp
  have hwanted (r : Resource) :
      L.database.hasId Layout.resources "id" ids r.scalarRow = ids.contains r.id :=
    hasId_text L.contents Part.id_resources rfl Resource.scalarRow_id ids
  have htable : L.database.table Layout.resources =
      .ok (Part.resources.table (L.resources.map Resource.scalarRow)) :=
    Contents.table_database L.contents .resources
  rw [readScalars, hneed, htable]
  refine congrArg Except.ok ?_
  simp only [Part.table_rows, List.filter_map, List.map_flatMap, List.flatMap_map,
    Function.comp_def, hwanted]
  rw [List.flatMap_congr fun r hr => hrow _ r (List.mem_filter.mp hr).1, ← List.map_eq_flatMap]

/-- The rows of some ids in the order of some columns, read back one by one. -/
private theorem sorted_rows {α : Type} (c : Contents) {p : Part} {column : String} {d : Declaration}
    (hcolumn : (column, d) ∈ p.columns) (htext : d.affinity = .text) {row : α → Row}
    {keyOf : α → String} (hcell : ∀ a, (row a).cell column = .text (keyOf a)) {items : List α}
    (hrows : c p = items.map row) (columns : List String) (ids : List String) :
    ∃ sorted : List α,
      ((c.database.rows p.name).filter (c.database.hasId p.name column ids)).mergeSort
        (inOrder columns) = sorted.map row ∧ (∀ a ∈ sorted, ids.contains (keyOf a) = true) ∧
      ∀ (q : α → Bool), (∀ a, q a = true → ids.contains (keyOf a) = true) →
        (items.filter q).Pairwise (fun a b => inOrder columns (row a) (row b) = true) →
          sorted.filter q = items.filter q := by
  refine ⟨(items.filter fun a => ids.contains (keyOf a)).mergeSort fun a b =>
    inOrder columns (row a) (row b), ?_, ?_, ?_⟩
  · have hwanted (a : α) : c.database.hasId p.name column ids (row a) = ids.contains (keyOf a) :=
      hasId_text c hcolumn htext (hcell a) ids
    rw [Contents.rows_database, hrows, List.filter_map]
    simp only [Function.comp_def, hwanted]
    exact (List.map_mergeSort (f := row) fun a _ b _ => rfl).symm
  · intro a ha
    exact (List.mem_filter.mp (List.mem_mergeSort.mp ha)).2
  · intro q hq hordered
    have hwanted : (items.filter fun a => ids.contains (keyOf a)).filter q = items.filter q := by
      rw [List.filter_filter]
      refine List.filter_congr fun a _ => ?_
      cases hqa : q a with
      | false => rfl
      | true => rw [hq a hqa]; rfl
    rw [filter_mergeSort (fun a b c => inOrder_trans columns (row a) (row b) (row c))
      (fun a b => inOrder_total columns (row a) (row b)) (by rwa [hwanted]), hwanted]

private theorem readAttributes_database (L : Ledger) (ids : List String) :
    ∃ found, L.database.readAttributes ids = .ok found ∧
      (∀ entry ∈ found, ids.contains entry.1 = true) ∧
      ∀ id field, ids.contains id = true →
        found.filter (fun entry => entry.1 == id && entry.2.1 == field) =
          (L.resources.flatMap Resource.attributes).filter
            fun entry => entry.1 == id && entry.2.1 == field := by
  obtain ⟨found, hsorted, hids, hfilter⟩ := sorted_rows L.contents Part.id_attributes rfl
    attributeRow_id (show L.contents .attributes =
      (L.resources.flatMap Resource.attributes).map attributeRow from rfl) ["id", "field"] ids
  refine ⟨found, ?_, hids, fun id field hid => hfilter _ ?_ ?_⟩
  · have hneed : L.database.need [(Layout.attributes, "id"), (Layout.attributes, "field"),
        (Layout.attributes, "value")] = .ok () := by
      refine Contents.need_database L.contents ?_
      simp only [List.forall_mem_cons, List.not_mem_nil, false_imp_iff, implies_true, and_true]
      refine ⟨⟨.attributes, rfl, ?_⟩, ⟨.attributes, rfl, ?_⟩, ⟨.attributes, rfl, ?_⟩⟩ <;>
        exact Part.has_of_name (by simp [Part.columns, attributeColumns])
    have hread (entry : String × String × String) :
        attributeOfRow (attributeRow entry) = .ok entry := by
      rw [attributeOfRow, attributeRow_id, attributeRow_field, attributeRow_value]
      rfl
    rw [readAttributes, hneed]
    refine (congrArg (List.mapM attributeOfRow) hsorted).trans ?_
    exact (mapM_map_eq_ok hread found).trans (congrArg Except.ok (List.map_id' found))
  · intro entry hentry
    rw [Bool.and_eq_true, beq_iff_eq] at hentry
    rwa [hentry.1]
  · have hsame : ∀ entry ∈ (L.resources.flatMap Resource.attributes).filter
        (fun entry => entry.1 == id && entry.2.1 == field),
        entry.1 = id ∧ entry.2.1 = field := by
      intro entry hentry
      simpa using (List.mem_filter.mp hentry).2
    refine List.pairwise_of_forall_mem_list fun a ha b hb => ?_
    obtain ⟨haid, hafield⟩ := hsame a ha
    obtain ⟨hbid, hbfield⟩ := hsame b hb
    rw [inOrder_eq, compareBy_of_cells_eq]
    · rfl
    · simp [haid, hafield, hbid, hbfield]

theorem readDistributions_database (h : L.Sound) (ids : List String) :
    ∃ found, L.database.readDistributions ids = .ok found ∧
      (∀ entry ∈ found, ids.contains entry.1 = true) ∧
      ∀ id, ids.contains id = true →
        found.filter (fun entry => entry.1 == id) =
          (L.placements.filter fun p => p.id == id).map fun p => (p.id, p.distribution) := by
  obtain ⟨found, hsorted, hids, hfilter⟩ := sorted_rows L.contents Part.id_distributions rfl
    Placement.row_id (show L.contents .distributions = L.placements.map Placement.row from rfl)
    ["resource_id", "position"] ids
  refine ⟨found.map fun p => (p.id, p.distribution), ?_, ?_, fun id hid => ?_⟩
  · have hneed : L.database.need (["resource_id", "relation_key", "url", "label", "position"].map
        (Layout.distributions, ·)) = .ok () := by
      refine Contents.need_database L.contents fun entry hentry => ?_
      obtain ⟨name, hname, rfl⟩ := List.mem_map.mp hentry
      exact ⟨.distributions, rfl, Part.has_of_name hname⟩
    have hread (p : Placement) : distributionOfRow p.row = .ok (p.id, p.distribution) := by
      obtain ⟨id, ⟨relation, url, label⟩, position⟩ := p
      rw [distributionOfRow, Placement.row_id, Placement.row_relation, Placement.row_url,
        Placement.row_label]
      cases label <;> rfl
    rw [readDistributions, hneed]
    refine (congrArg (List.mapM distributionOfRow) hsorted).trans ?_
    exact mapM_map_eq_ok hread found
  · intro entry hentry
    obtain ⟨p, hp, rfl⟩ := List.mem_map.mp hentry
    exact hids p hp
  · rw [List.filter_map]
    refine congrArg _ (hfilter _ ?_ ?_)
    · intro p hp
      have hpid : p.id = id := beq_iff_eq.mp hp
      rwa [hpid]
    · refine (h.placements.sublist List.filter_sublist).imp_of_mem ?_
      intro p q hp hq hapart
      have hpid : p.id = id := beq_iff_eq.mp (List.mem_filter.mp hp).2
      have hqid : q.id = id := beq_iff_eq.mp (List.mem_filter.mp hq).2
      have hlt := (hapart (hqid.trans hpid.symm)).1
      rw [inOrder_eq]
      simp only [compareBy, Placement.row_id, Placement.row_position, hpid, hqid, Cell.compare_int,
        Int.compare_eq_lt.mpr hlt, Cell.compare_text_eq.mpr rfl]
      rfl

/-! Values and distributions put into what was found -/

private theorem get?_foldl_modify {α : Type} (keyOf : α → String) (f : α → Resource → Resource)
    (entries : List α) (found : Found) (id : String) :
    (entries.foldl (fun found entry => found.modify (keyOf entry) (f entry)) found).get? id =
      (found.get? id).map fun r =>
        (entries.filter fun entry => keyOf entry == id).foldl (fun r entry => f entry r) r := by
  induction entries generalizing found with
  | nil => simp
  | cons entry rest ih =>
      rw [List.foldl_cons, ih, Dict.get?_modify]
      by_cases hkey : keyOf entry = id
      · rw [if_pos hkey.symm, List.filter_cons_of_pos (by simpa using hkey), Option.map_map, hkey]
        rfl
      · rw [if_neg fun h => hkey h.symm, List.filter_cons_of_neg (by simpa using hkey)]

private def addValue (entry : String × String × String) (r : Resource) : Resource :=
  r.setValues entry.2.1 (r.values entry.2.1 ++ [entry.2.2])

private theorem get?_foldl_addAttribute (values : List (String × String × String)) (found : Found)
    (id : String) :
    (values.foldl addAttribute found).get? id = (found.get? id).map fun r =>
      (values.filter fun entry => entry.1 == id).foldl (fun r entry => addValue entry r) r :=
  get?_foldl_modify Prod.fst addValue values found id

private def addPlace (entry : String × Distribution) (r : Resource) : Resource :=
  { r with distributions := r.distributions ++ [entry.2] }

private theorem get?_foldl_addDistribution (places : List (String × Distribution)) (found : Found)
    (id : String) :
    (places.foldl addDistribution found).get? id = (found.get? id).map fun r =>
      (places.filter fun entry => entry.1 == id).foldl (fun r entry => addPlace entry r) r :=
  get?_foldl_modify Prod.fst addPlace places found id

private theorem foldl_addPlace (places : List (String × Distribution)) (r : Resource) :
    places.foldl (fun r entry => addPlace entry r) r =
      { r with distributions := r.distributions ++ places.map Prod.snd } := by
  induction places generalizing r with
  | nil => simp
  | cons place rest ih =>
      rw [List.foldl_cons, ih, addPlace, List.map_cons, List.append_assoc, List.singleton_append]

private theorem foldl_addValue (entries : List (String × String × String)) (r : Resource) :
    ∃ repeatables : Dict (List String),
      entries.foldl (fun r entry => addValue entry r) r = { r with repeatables := repeatables } ∧
        ∀ field, repeatables.get? field =
          match entries.filter fun entry => entry.2.1 == field with
          | [] => r.repeatables.get? field
          | found => some (r.values field ++ found.map fun entry => entry.2.2) := by
  induction entries generalizing r with
  | nil => exact ⟨r.repeatables, rfl, fun field => rfl⟩
  | cons entry rest ih =>
      obtain ⟨repeatables, hrepeatables, hget⟩ := ih (addValue entry r)
      refine ⟨repeatables, ?_, fun field => ?_⟩
      · rw [List.foldl_cons, hrepeatables]
        rfl
      · have hfirst : (addValue entry r).repeatables.get? field =
            if field = entry.2.1 then some (r.values entry.2.1 ++ [entry.2.2])
            else r.repeatables.get? field := Dict.get?_insert _ _ _ _
        rw [hget]
        simp only [Resource.values, hfirst]
        by_cases hfield : field = entry.2.1
        · subst hfield
          simp only [if_true, Option.getD_some, List.filter_cons, BEq.rfl]
          cases rest.filter fun other => other.2.1 == entry.2.1 <;> simp
        · have hother : (entry.2.1 == field) = false := beq_false_of_ne (Ne.symm hfield)
          simp only [if_neg hfield, List.filter_cons, hother, Bool.false_eq_true, if_false]

private theorem get?_foldl_scalarParts (h : L.Sound) (ids : List String) (found : Found)
    (id : String) :
    (((L.resources.filter fun r => ids.contains r.id).map fun r =>
      r.scalarPart (findEntry r.id L.thumbnails)).foldl
        (fun found r => found.insert r.id r) found).get? id =
      (if ids.contains id then
        (L.resources.find? fun r => r.id == id).map fun r =>
          r.scalarPart (findEntry r.id L.thumbnails)
      else none).or (found.get? id) := by
  have hfilter : (L.resources.filter fun r => ids.contains r.id).filter (fun r => r.id == id) =
      if ids.contains id then (L.resources.find? fun r => r.id == id).toList else [] := by
    rw [← filter_key h.resources, List.filter_filter]
    cases hid : ids.contains id with
    | true =>
        refine List.filter_congr fun r _ => ?_
        cases hr : r.id == id with
        | true => rw [beq_iff_eq.mp hr, hid]; rfl
        | false => rfl
    | false =>
        rw [if_neg Bool.false_ne_true, List.filter_eq_nil_iff]
        intro r _ hr
        obtain ⟨hsame, hmem⟩ := Bool.and_eq_true_iff.mp hr
        rw [beq_iff_eq.mp hsame, hid] at hmem
        exact absurd hmem Bool.false_ne_true
  have hentries := Dict.get?_foldl_insert ((L.resources.filter fun r => ids.contains r.id).map
    fun r => (r.id, r.scalarPart (findEntry r.id L.thumbnails))) found id
  rw [List.foldl_map, List.filter_map] at hentries
  simp only [Function.comp_def, hfilter] at hentries
  rw [List.foldl_map]
  refine Eq.trans hentries ?_
  cases ids.contains id with
  | true => cases L.resources.find? fun r => r.id == id <;> rfl
  | false => rfl

private theorem fst_of_mem_pairs {entry : String × List String} {pair : String × String}
    (h : pair ∈ (keptValues entry.2).map (entry.1, ·)) : pair.1 = entry.1 := by
  obtain ⟨value, -, rfl⟩ := List.mem_map.mp h
  rfl

theorem filter_attributes (h : L.Sound) {r : Resource} (hr : r ∈ L.resources) (field : String) :
    (L.resources.flatMap Resource.attributes).filter
        (fun entry => entry.1 == r.id && entry.2.1 == field) =
      (keptValues (r.values field)).map fun value => (r.id, field, value) := by
  have hresource : (L.resources.flatMap Resource.attributes).filter
      (fun entry => entry.1 == r.id) = r.attributes := by
    have hown : (L.resources.flatMap Resource.attributes).filter (fun entry => entry.1 == r.id) =
        (L.resources.filter fun other => other.id == r.id).flatMap Resource.attributes :=
      filter_flatMap_key (fun _ _ hentry => Resource.id_of_mem_attributes hentry) (· == r.id) _
    rw [hown, filter_key h.resources, h.find? hr]
    exact List.append_nil _
  have hpairs : (attributePairs r).filter (fun pair => pair.1 == field) =
      (keptValues (r.values field)).map (field, ·) := by
    have hown : (attributePairs r).filter (fun pair => pair.1 == field) =
        (r.repeatables.entries.filter fun entry => entry.1 == field).flatMap
          fun entry => (keptValues entry.2).map (entry.1, ·) :=
      filter_flatMap_key (fun _ _ hpair => fst_of_mem_pairs hpair) (· == field) _
    rw [hown, filter_key (Dict.nodup_keys r.repeatables), Resource.values, Dict.get?, findEntry]
    cases hfind : r.repeatables.entries.find? fun entry => entry.1 == field with
    | none => rfl
    | some entry =>
        obtain rfl : entry.1 = field := by simpa using List.find?_some hfind
        exact List.append_nil _
  calc
    _ = (r.attributes).filter fun entry => entry.2.1 == field := by
      rw [← hresource, List.filter_filter]
      simp only [Bool.and_comm]
    _ = ((attributePairs r).filter fun pair => pair.1 == field).map (r.id, ·) := by
      rw [Resource.attributes, List.filter_map]
      rfl
    _ = _ := by
      rw [hpairs, List.map_map]
      rfl

private theorem record_eq (h : L.Sound) {r : Resource} {id : String}
    (hr : (L.resources.find? fun r => r.id == id) = some r)
    {values : List (String × String × String)} {places : List (String × Distribution)}
    (hvalues : ∀ field, values.filter (fun entry => entry.2.1 == field) =
      (L.resources.flatMap Resource.attributes).filter
        fun entry => entry.1 == id && entry.2.1 == field)
    (hplaces : places = (L.placements.filter fun p => p.id == id).map fun p =>
      (p.id, p.distribution)) :
    places.foldl (fun r entry => addPlace entry r) (values.foldl (fun r entry => addValue entry r)
      (r.scalarPart (findEntry r.id L.thumbnails))) = L.record r := by
  obtain rfl : r.id = id := by simpa using List.find?_some hr
  obtain ⟨repeatables, hrepeatables, hget⟩ :=
    foldl_addValue values (r.scalarPart (findEntry r.id L.thumbnails))
  have heq : repeatables = r.repeatables.filterMap Resource.kept? := by
    refine Dict.ext_get? fun field => ?_
    rw [hget, hvalues, filter_attributes h (List.mem_of_find?_eq_some hr), Dict.get?_filterMap]
    cases hfield : r.repeatables.get? field with
    | none => simp [Resource.values, hfield, keptValues, Resource.scalarPart]
    | some given =>
        have hgiven : r.values field = given := by rw [Resource.values, hfield]; rfl
        rw [hgiven, Option.bind_some, Resource.kept?]
        cases keptValues given with
        | nil => rfl
        | cons first rest => simp [Resource.values, Resource.scalarPart, Function.comp_def]
  rw [hrepeatables, heq, foldl_addPlace, hplaces, List.map_map]
  rfl

private theorem filter_other {β : Type} {entries : List (String × β)} {ids : List String}
    (hentries : ∀ entry ∈ entries, ids.contains entry.1 = true) {id : String}
    (hid : ids.contains id = false) : entries.filter (fun entry => entry.1 == id) = [] := by
  rw [List.filter_eq_nil_iff]
  intro entry hentry hsame
  rw [← beq_iff_eq.mp hsame, hentries entry hentry] at hid
  exact absurd hid.symm Bool.false_ne_true

/-- What is found for an id: all that the ledger holds for it, or what had been found before. -/
private theorem readChunk_database (h : L.Sound) (ids : List String) {found : Found}
    (hfound : ∀ id r, found.get? id = some r → L.resource? id = some r) :
    ∃ more : Found, L.database.readChunk found ids = .ok more ∧
      ∀ id, more.get? id = if ids.contains id then L.resource? id else found.get? id := by
  obtain ⟨values, hvalues, hvalueIds, hvalueOf⟩ := readAttributes_database L ids
  obtain ⟨places, hplaces, hplaceIds, hplaceOf⟩ := readDistributions_database h ids
  have hread : L.database.readChunk found ids = .ok (places.foldl addDistribution
      (values.foldl addAttribute
        (((L.resources.filter fun r => ids.contains r.id).map fun r =>
          r.scalarPart (findEntry r.id L.thumbnails)).foldl
            (fun found r => found.insert r.id r) found))) := by
    rw [readChunk, readScalars_database h, hvalues, hplaces]
    rfl
  refine ⟨_, hread, fun id => ?_⟩
  rw [get?_foldl_addDistribution, get?_foldl_addAttribute, get?_foldl_scalarParts h, Option.map_map]
  cases hid : ids.contains id with
  | false =>
      -- the rows that were read are those of the ids of the chunk
      simp [filter_other hvalueIds hid, filter_other hplaceIds hid, Function.comp_def]
  | true =>
      cases hr : L.resources.find? fun r => r.id == id with
      | none =>
          -- without a resource nothing was found for the id before
          have hnone : L.resource? id = none := by rw [resource?, hr]; rfl
          have hbefore : found.get? id = none := by
            cases hget : found.get? id with
            | none => rfl
            | some r => rw [hfound id r hget] at hnone; exact absurd hnone (Option.some_ne_none r)
          simp [hnone, hbefore]
      | some r =>
          have hvaluesOf : ∀ field, (values.filter fun entry => entry.1 == id).filter
              (fun entry => entry.2.1 == field) = (L.resources.flatMap Resource.attributes).filter
                fun entry => entry.1 == id && entry.2.1 == field := by
            intro field
            rw [List.filter_filter, ← hvalueOf id field hid]
            simp only [Bool.and_comm]
          simp only [if_true, Option.map_some, Option.some_or, Function.comp_apply, resource?, hr]
          exact congrArg some (record_eq h hr hvaluesOf (hplaceOf id hid))

theorem readChunks_database (h : L.Sound) (chunks : List (List String)) {found : Found}
    (hfound : ∀ id r, found.get? id = some r → L.resource? id = some r) :
    ∃ more : Found, L.database.readChunks found chunks = .ok more ∧
      ∀ id, more.get? id = if id ∈ chunks.flatten then L.resource? id else found.get? id := by
  induction chunks generalizing found with
  | nil => exact ⟨found, rfl, fun id => by simp⟩
  | cons ids rest ih =>
      obtain ⟨some, hsome, hget⟩ := readChunk_database h ids hfound
      have hnext : ∀ id r, some.get? id = Option.some r → L.resource? id = Option.some r := by
        intro id r hr
        rw [hget] at hr
        split at hr
        · exact hr
        · exact hfound id r hr
      obtain ⟨more, hmore, hrest⟩ := ih hnext
      refine ⟨more, ?_, fun id => ?_⟩
      · rw [readChunks, hsome]
        exact hmore
      · rw [hrest, hget]
        by_cases hid : id ∈ ids <;> by_cases hlater : id ∈ rest.flatten <;> simp [hid, hlater]

theorem flatten_chunksOf {α : Type} (n : Nat) (items : List α) :
    (chunksOf n items).flatten = items := by
  induction items using chunksOf.induct n with
  | case1 => simp [chunksOf]
  | case2 a rest ih =>
      rw [chunksOf, List.flatten_cons, ih, List.cons_append, List.take_append_drop]

/-! What a ledger answers -/

theorem hydrate_database (h : L.Sound) (ids : List String) :
    L.database.hydrate ids = .ok (ids.eraseDups.filterMap L.resource?) := by
  have hstart : ∀ id r, (Dict.empty : Found).get? id = some r → L.resource? id = some r :=
    fun id r hr => nomatch hr
  obtain ⟨found, hfound, hget⟩ := readChunks_database h (chunksOf (chunkSize - 1) ids) hstart
  rw [hydrate, hfound, Except.map]
  refine congrArg Except.ok (List.filterMap_congr fun id hid => ?_)
  rw [hget, flatten_chunksOf, if_pos (List.mem_eraseDups.mp hid)]

theorem count_database (L : Ledger) : L.database.count = .ok L.resources.length := by
  have htable : L.database.table Layout.resources =
      .ok (Part.resources.table (L.resources.map Resource.scalarRow)) :=
    Contents.table_database L.contents .resources
  rw [count, htable]
  exact congrArg Except.ok (List.length_map _)

theorem staticMap?_database (h : L.Sound) (id : String) :
    L.database.staticMap? id = .ok (findEntry id L.staticMaps) := by
  let t : Table := Part.staticMaps.table (L.staticMaps.map (cacheRow .staticMaps "image_url"))
  have htable : L.database.table Layout.staticMaps = .ok t :=
    Contents.table_database L.contents .staticMaps
  have hneed : t.need ["image_url", "id"] = .ok () := by
    refine Table.need_eq_ok ?_
    simp only [List.forall_mem_cons, List.not_mem_nil, false_imp_iff, implies_true, and_true]
    exact ⟨Part.has_of_name (p := .staticMaps) (by simp [Part.columns, staticMapColumns]),
      Part.has_of_mem Part.id_staticMaps⟩
  have hselect : t.select "id" id =
      (L.staticMaps.filter fun entry => entry.1 == id).map (cacheRow .staticMaps "image_url") :=
    Contents.select_text Part.id_staticMaps rfl staticMapRow_id L.staticMaps id
  simp only [staticMap?, htable, hneed, hselect, filter_key h.staticMaps]
  cases hfind : L.staticMaps.find? fun entry => entry.1 == id with
  | none => simp [findEntry, hfind]
  | some entry =>
      have hurl := staticMapRow_url entry
      simp only [Option.toList_some, List.map_cons, List.map_nil, hurl, findEntry, hfind]
      rfl

end Ledger

end Gazetteer
