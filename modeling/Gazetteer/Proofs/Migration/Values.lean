import Mathlib
import Gazetteer.Proofs.Migration.Additive
import Gazetteer.Proofs.Migration.Spelling
import Gazetteer.Proofs.Query.Facet
/-!
The values of a scalar field over a database that was brought to the present layout.  Resources
show numbers as texts, while the buckets of a field are read from texts only.  So the values of a
column without numbers and bytes are counted as the resources show them, and one cell of another
kind is enough for none to be counted.
-/

namespace Gazetteer

open Layout

/-! Cells -/

namespace Cell

def IsTextOrNull (c : Cell) : Prop :=
  c = .null ∨ ∃ s, c = .text s

theorem against_empty (affinity : Affinity) : (text "").against affinity = .text "" := by
  cases affinity <;> decide

theorem exists_distinct_same {c : Cell} {cells : List Cell} (h : c ∈ cells) :
    ∃ d ∈ distinct cells, d.same c = true := by
  induction cells with
  | nil => exact absurd h List.not_mem_nil
  | cons first rest ih =>
      have hself : first.same first = true := BEq.rfl
      rcases List.mem_cons.mp h with rfl | hrest
      · exact ⟨c, List.mem_cons_self, hself⟩
      · obtain ⟨d, hd, hsame⟩ := ih hrest
        cases hfirst : first.same d with
        | true =>
            have hrank : first.rank .binary = c.rank .binary :=
              (beq_iff_eq.mp hfirst).trans (beq_iff_eq.mp hsame)
            exact ⟨first, List.mem_cons_self, beq_iff_eq.mpr hrank⟩
        | false =>
            refine ⟨d, List.mem_cons_of_mem _ (List.mem_filter.mpr ⟨hd, ?_⟩), hsame⟩
            rw [hfirst]
            rfl

theorem length_distinct_le (cells : List Cell) : (distinct cells).length ≤ cells.length := by
  induction cells with
  | nil => exact Nat.le_refl _
  | cons first rest ih =>
      exact Nat.succ_le_succ ((List.length_filter_le _ _).trans ih)

theorem not_text_of_same {c d : Cell} (hsame : d.same c = true) (hnull : c ≠ .null)
    (htext : ∀ s, c ≠ .text s) (s : String) : d ≠ .text s := by
  rintro rfl
  have hequals : c.equals (text s) = true := by
    have hrank : c.rank .binary = (text s).rank .binary := (beq_iff_eq.mp hsame).symm
    rw [equals, Bool.and_eq_true, Bool.and_eq_true]
    refine ⟨⟨?_, rfl⟩, beq_iff_eq.mpr hrank⟩
    rw [Bool.not_eq_true', Bool.eq_false_iff]
    exact fun h => hnull (isNull_iff.mp h)
  exact htext s (equals_text_iff.mp hequals)

end Cell

namespace Database

/-! Resources that are listed in their own table alone -/

/-- A table of resources, each under a text of its own, and nothing stored elsewhere. -/
structure Listed (ready : Database) (u : Table) : Prop where
  bare : ready.Bare
  table : ready.table? resources = some u
  consistent : u.Consistent
  thumbnail : thumbnailColumn ∉ u.columns.map Column.name
  spelled : "id" ∈ u.columns.map Column.name
  texts : ∀ row ∈ u.rows, ∃ id, row.cell "id" = .text id
  once : (u.rows.map (·.cell "id")).Nodup

def Reports (db : Database) (id field value : String) : Prop :=
  ∃ r, db.hydrate [id] = .ok [r] ∧ r.value? field = some value

namespace Listed

variable {ready : Database} {u : Table} {row : Row} {field : String}

theorem id_readRow (h : ready.Listed u) (hrow : row ∈ u.rows) {id : String}
    (hid : row.cell "id" = .text id) : (u.readRow row).id = id := by
  have hshows := h.consistent.shows_readRow hrow h.thumbnail
  exact (hshows.id_eq_iff hid).mpr (Or.inl (h.consistent.mem_names.mp h.spelled).2)

theorem value?_readRow (h : ready.Listed u) (hrow : row ∈ u.rows)
    (hfield : field = "id" ∨ IsFieldColumn field) (hspelled : field ∈ u.columns.map Column.name) :
    (u.readRow row).value? field = (row.cell field).shown? := by
  by_cases hname : field = "id"
  · subst hname
    obtain ⟨id, hid⟩ := h.texts row hrow
    rw [Resource.value?, if_pos rfl, h.id_readRow hrow hid, hid]
    rfl
  · rw [Resource.value?, if_neg hname,
      h.consistent.scalar?_readRow hrow h.thumbnail (hfield.resolve_left hname),
      if_pos (h.consistent.mem_names.mp hspelled).2]

theorem hydrate_row (h : ready.Listed u) (hrow : row ∈ u.rows) {id : String}
    (hid : row.cell "id" = .text id) : ready.hydrate [id] = .ok [u.readRow row] := by
  obtain ⟨before, after, hrows⟩ := List.append_of_mem hrow
  have hlast : ∀ other ∈ after, other.cell "id" ≠ .text id := by
    have honce := h.once
    rw [hrows, List.map_append, List.map_cons, List.nodup_append] at honce
    intro other hother hsame
    apply (List.nodup_cons.mp honce.2.1).1
    rw [hid, ← hsame]
    exact List.mem_map_of_mem hother
  have hread := Database.hydrate_row h.bare h.consistent h.table h.thumbnail hrows hid hlast
  rwa [if_pos (Or.inl (h.consistent.mem_names.mp h.spelled).2)] at hread

theorem exists_row (h : ready.Listed u) {id : String} {r : Resource}
    (hread : ready.hydrate [id] = .ok [r]) :
    ∃ row ∈ u.rows, row.cell "id" = .text id ∧ u.readRow row = r := by
  have hhas := (h.consistent.mem_names.mp h.spelled).1
  rw [h.bare.hydrate h.table hhas, Except.ok.injEq] at hread
  have hlast := List.mem_of_getLast? (Option.toList_eq_singleton_iff.mp hread)
  obtain ⟨hmem, hid⟩ := List.mem_filter.mp hlast
  obtain ⟨row, hrow, rfl⟩ := List.mem_map.mp hmem
  have hstored := (List.mem_filter.mp hrow).1
  obtain ⟨stored, htext⟩ := h.texts row hstored
  rw [h.id_readRow hstored htext, beq_iff_eq] at hid
  subst hid
  exact ⟨row, hstored, htext, rfl⟩

theorem reports_iff (h : ready.Listed u) (hfield : field = "id" ∨ IsFieldColumn field)
    (hspelled : field ∈ u.columns.map Column.name) {id value : String} :
    ready.Reports id field value ↔
      ∃ row ∈ u.rows, row.cell "id" = .text id ∧ (row.cell field).shown? = some value := by
  constructor
  · rintro ⟨r, hread, hvalue⟩
    obtain ⟨row, hrow, hid, rfl⟩ := h.exists_row hread
    rw [h.value?_readRow hrow hfield hspelled] at hvalue
    exact ⟨row, hrow, hid, hvalue⟩
  · rintro ⟨row, hrow, hid, hvalue⟩
    refine ⟨u.readRow row, h.hydrate_row hrow hid, ?_⟩
    rw [h.value?_readRow hrow hfield hspelled, hvalue]

theorem length_values_le (h : ready.Listed u) (hfield : field = "id" ∨ IsFieldColumn field)
    (hspelled : field ∈ u.columns.map Column.name) {values : List String} (hnodup : values.Nodup)
    (hvalues : ∀ value ∈ values, ∃ id, ready.Reports id field value) :
    values.length ≤ u.rows.length := by
  have hshown : values ⊆ u.rows.filterMap fun row => (row.cell field).shown? := by
    intro value hvalue
    obtain ⟨id, hreports⟩ := hvalues value hvalue
    obtain ⟨row, hrow, -, hcell⟩ := (h.reports_iff hfield hspelled).mp hreports
    exact List.mem_filterMap.mpr ⟨row, hrow, hcell⟩
  exact (hnodup.subperm hshown).length_le.trans (List.length_filterMap_le _ _)

/-! The buckets of a field -/

private theorem occurrences (h : ready.Listed u) (field : String) :
    ready.scalarOccurrences field none [] =
      (u.rows.map fun row => (row.cell field, row.cell "id")).filter fun entry =>
        !entry.1.isNull && !entry.1.equals (.text "") := by
  have hrows : ready.selected none [] = u.rows := by
    simp only [selected, hits, rows, h.table]
    exact List.filter_eq_self.mpr fun row _ => rfl
  rw [scalarOccurrences, hrows, Cell.against_empty]

private def columnEntries (rows : List Row) (field : String) : List (String × String) :=
  rows.filterMap fun row =>
    match row.cell field, row.cell "id" with
    | .text value, .text id => if value = "" then none else some (value, id)
    | _, _ => none

private theorem mem_columnEntries {rows : List Row} {value id : String} :
    (value, id) ∈ columnEntries rows field ↔ value ≠ "" ∧
      ∃ row ∈ rows, row.cell "id" = .text id ∧ row.cell field = .text value := by
  rw [columnEntries, List.mem_filterMap]
  constructor
  · rintro ⟨row, hrow, hentry⟩
    split at hentry
    next value' id' hvalue hid =>
      rw [Option.ite_none_left_eq_some, Option.some.injEq, Prod.mk.injEq] at hentry
      obtain ⟨hne, rfl, rfl⟩ := hentry
      exact ⟨hne, row, hrow, hid, hvalue⟩
    next => cases hentry
  · rintro ⟨hne, row, hrow, hid, hvalue⟩
    refine ⟨row, hrow, ?_⟩
    simp only [hvalue, hid, if_neg hne]

private theorem occurrences_texts {rows : List Row}
    (hids : ∀ row ∈ rows, ∃ id, row.cell "id" = .text id)
    (htexts : ∀ row ∈ rows, (row.cell field).IsTextOrNull) :
    ((rows.map fun row => (row.cell field, row.cell "id")).filter fun entry =>
      !entry.1.isNull && !entry.1.equals (.text "")) =
        (columnEntries rows field).map occurrence := by
  induction rows with
  | nil => rfl
  | cons row rest ih =>
      obtain ⟨⟨id, hid⟩, hids⟩ := List.forall_mem_cons.mp hids
      obtain ⟨hcell, htexts⟩ := List.forall_mem_cons.mp htexts
      rw [List.map_cons, List.filter_cons, ih hids htexts]
      rcases hcell with hnull | ⟨value, hvalue⟩
      · simp [columnEntries, hnull, Cell.isNull]
      · by_cases hempty : value = ""
        · simp [columnEntries, hvalue, hid, hempty]
        · simp [columnEntries, hvalue, hid, hempty, Cell.isNull, occurrence]

private theorem shown?_eq_some {c : Cell} (h : c.IsTextOrNull) {value : String} :
    c.shown? = some value ↔ c = .text value := by
  rcases h with rfl | ⟨s, rfl⟩
  · simp [Cell.shown?]
  · rw [Cell.shown?, Option.some.injEq, Cell.text.injEq]

private theorem le_facetLimit (config : Config) (field : String) (n : Nat) :
    n ≤ facetLimit config ⟨field, some n⟩ := by
  rw [facetLimit]
  split
  · exact Nat.le_max_left _ _
  · exact Nat.le_refl _

variable {schema : Schema} {n : Nat}

private theorem need_column (h : ready.Listed u) (hscalar : schema.isScalar field = true)
    (hspelled : field ∈ u.columns.map Column.name) :
    ready.need (facetNeeds schema field ++ selectionNeeds none []) = .ok () := by
  rw [facetNeeds, if_pos hscalar]
  apply need_eq_ok
  refine List.forall_mem_cons.mpr ⟨⟨u, h.table, ?_⟩, List.forall_mem_singleton.mpr ⟨u, h.table, ?_⟩⟩
  · exact (h.consistent.mem_names.mp hspelled).1
  · exact (h.consistent.mem_names.mp h.spelled).1

/-- Of texts and nulls the values are counted as the resources show them. -/
theorem distinctValues_texts (h : ready.Listed u) (hscalar : schema.isScalar field = true)
    (hname : checkName field = .ok ()) (hfield : field = "id" ∨ IsFieldColumn field)
    (hspelled : field ∈ u.columns.map Column.name)
    (htexts : ∀ row ∈ u.rows, (row.cell field).IsTextOrNull) (config : Config)
    (hlimit : ∀ values : List String, values.Nodup →
      (∀ value ∈ values, value ≠ "" ∧ ∃ id, ready.Reports id field value) → values.length ≤ n) :
    ∃ found, ready.distinctValues schema config ⟨field, some n⟩ = .ok found ∧
      (found.map Bucket.value).Nodup ∧
      ∀ value k, ⟨value, k⟩ ∈ found ↔ value ≠ "" ∧ 0 < k ∧ ∃ ids : List String, ids.Nodup ∧
        ids.length = k ∧ ∀ id, id ∈ ids ↔ ready.Reports id field value := by
  let spec : FacetSpec := ⟨field, some n⟩
  have hentries : (if schema.isScalar spec.field then ready.scalarOccurrences spec.field none []
      else ready.repeatableOccurrences spec.field none []) =
        (columnEntries u.rows field).map occurrence := by
    rw [if_pos hscalar, h.occurrences, occurrences_texts h.texts htexts]
  have hmem (value id : String) : (value, id) ∈ columnEntries u.rows field ↔
      value ≠ "" ∧ ready.Reports id field value := by
    rw [mem_columnEntries, h.reports_iff hfield hspelled]
    refine and_congr_right fun _ => exists_congr fun row => and_congr_right fun hrow => ?_
    rw [shown?_eq_some (htexts row hrow)]
  obtain ⟨all, hbuckets, hnodup, -, hall⟩ :=
    buckets_of_occurrences config (h.need_column hscalar hspelled) hentries
  simp only [hmem, exists_ids_iff] at hall
  have hlength : all.length ≤ n := by
    rw [← List.length_map Bucket.value]
    refine hlimit _ hnodup (List.forall_mem_map.mpr fun b hb => ?_)
    obtain ⟨hne, hpos, ids, -, hcount, hids⟩ := (hall b.value b.count).mp hb
    obtain ⟨id, hid⟩ := List.exists_mem_of_length_pos (hcount.symm ▸ hpos)
    exact ⟨hne, id, (hids id).mp hid⟩
  refine ⟨all, ?_, hnodup, hall⟩
  rw [distinctValues, hname, hbuckets,
    limited_of_length_le (hlength.trans (le_facetLimit config field n))]
  rfl

private theorem mem_scalarOccurrences (h : ready.Listed u) (hrow : row ∈ u.rows)
    (hcell : ¬(row.cell field).IsTextOrNull) :
    (row.cell field, row.cell "id") ∈ ready.scalarOccurrences field none [] := by
  obtain ⟨hnull, htext⟩ := not_or.mp hcell
  have hequals : (row.cell field).equals (.text "") = false := by
    rw [Bool.eq_false_iff]
    exact fun hempty => htext ⟨"", Cell.equals_text_iff.mp hempty⟩
  have hpresent : (row.cell field).isNull = false := by
    rw [Bool.eq_false_iff]
    exact fun habsent => hnull (Cell.isNull_iff.mp habsent)
  rw [h.occurrences]
  refine List.mem_filter.mpr ⟨List.mem_map_of_mem hrow, ?_⟩
  rw [hequals, hpresent]
  rfl

private theorem length_tally_le (h : ready.Listed u) (field : String) :
    (tally (ready.scalarOccurrences field none [])).length ≤ u.rows.length := by
  rw [tally, List.length_map]
  refine (Cell.length_distinct_le _).trans ?_
  rw [List.length_map, h.occurrences,
    ← List.length_map fun row : Row => (row.cell field, row.cell "id")]
  exact List.length_filter_le _ _

/-- A cell of another kind fails the values of its column. -/
theorem distinctValues_unread (h : ready.Listed u) (hscalar : schema.isScalar field = true)
    (hname : checkName field = .ok ()) (hspelled : field ∈ u.columns.map Column.name)
    {row : Row} (hrow : row ∈ u.rows) (hcell : ¬(row.cell field).IsTextOrNull) (config : Config)
    (hlimit : u.rows.length ≤ n) :
    ready.distinctValues schema config ⟨field, some n⟩ =
      .error (.engine (.unexpectedType field)) := by
  obtain ⟨hnull, htext⟩ := not_or.mp hcell
  have hfound := h.mem_scalarOccurrences hrow hcell
  have hshort := (h.length_tally_le field).trans hlimit
  -- the cell is counted under one that is no text either
  obtain ⟨counted, hcounted, hsame⟩ :=
    Cell.exists_distinct_same (List.mem_map_of_mem (f := Prod.fst) hfound)
  have hkind := Cell.not_text_of_same hsame hnull fun s hs => htext ⟨s, hs⟩
  rw [distinctValues, hname]
  change engineResult (ready.buckets schema config ⟨field, some n⟩ none []) = _
  rw [buckets, h.need_column hscalar hspelled]
  simp only [hscalar, if_true]
  rw [limited_of_length_le
    ((List.length_mergeSort _).trans_le (hshort.trans (le_facetLimit config field n)))]
  rw [mapM_eq_error (e := .unexpectedType field)]
  · rfl
  · intro entry _ fault hfault
    cases hentry : entry.1 with
    | text s =>
        rw [hentry] at hfault
        cases hfault
    | _ =>
        rw [hentry] at hfault
        cases hfault
        rfl
  · refine ⟨_, (List.mergeSort_perm _ _).mem_iff.mpr (List.mem_map_of_mem hcounted),
      .unexpectedType field, ?_⟩
    cases counted with
    | text s => exact absurd rfl (hkind s)
    | _ => rfl

end Listed

/-! Databases that were brought to the layout -/

variable {db ready : Database} {t : Table} {schema : Schema} {field : String}

private theorem map_id_of_keepsRows {u : Table} (h : t.Consistent)
    (htexts : ∀ row ∈ t.rows, ∃ id, row.cell "id" = .text id) (hkept : KeepsRows resources t u) :
    u.rows.map (·.cell "id") = t.rows.map (·.cell "id") := by
  cases hrows : t.rows with
  | nil =>
      rw [KeepsRows, hrows, List.forall₂_nil_left_iff] at hkept
      rw [hkept]
  | cons row rest =>
      have hrow : row ∈ t.rows := hrows ▸ List.mem_cons_self
      obtain ⟨id, hid⟩ := htexts row hrow
      have hhas : t.has "id" = true := h.has_of_text hrow hid
      have hsame : List.Forall₂ (fun old new : Row => old.cell "id" = new.cell "id")
          t.rows u.rows := by
        refine hkept.imp fun old new hcells => ?_
        rcases hcells "id" hhas with hcell | ⟨-, hedge, -⟩
        · exact hcell.symm
        · exact absurd hedge (by decide)
      rw [← hrows, ← List.forall₂_eq_eq_eq, List.forall₂_map_left_iff, List.forall₂_map_right_iff]
      exact hsame.flip.imp fun _ _ heq => heq.symm

theorem exists_listed (hdb : db.Consistent) (ht : db.table? resources = some t)
    (halone : ∀ entry ∈ sideTables, db.table? entry.1 = none)
    (htexts : ∀ row ∈ t.rows, ∃ id, row.cell "id" = .text id)
    (honce : (t.rows.map (·.cell "id")).Nodup) (hready : db.prepare schema = .ok ready)
    (hthumbnail : thumbnailColumn ∉ ready.columnNames resources)
    (hspelled : "id" ∈ ready.columnNames resources) :
    ∃ u, ready.Listed u ∧ ready.columnNames resources = u.columns.map Column.name ∧
      ready.rows resources = u.rows := by
  obtain ⟨later, ids, -, hrefills, -⟩ := prepare_refills hdb hready
  obtain ⟨u, hu, hkept⟩ := prepare_keepsRows hdb ht hready
  have hcolumns : ready.columnNames resources = u.columns.map Column.name := by
    rw [columnNames, hu]
  have hrows : ready.rows resources = u.rows := by
    rw [rows, hu]
  have hids := map_id_of_keepsRows (hdb t (mem_of_table? ht)) htexts hkept
  rw [hcolumns] at hthumbnail hspelled
  refine ⟨u, ⟨prepare_bare hdb halone hready, hu, hrefills.consistent u (mem_of_table? hu),
    hthumbnail, hspelled, fun row hrow => ?_, hids ▸ honce⟩, hcolumns, hrows⟩
  have hcell : row.cell "id" ∈ t.rows.map (·.cell "id") := by
    rw [← hids]
    exact List.mem_map_of_mem hrow
  obtain ⟨old, hold, hsame⟩ := List.mem_map.mp hcell
  obtain ⟨id, hid⟩ := htexts old hold
  exact ⟨id, hsame.symm.trans hid⟩

/-- The values of a scalar field, once a database of resources with ids of their own was brought to
the layout: where the columns of `id` and of the field are spelled as in the schema, the values of
texts and nulls are counted as the resources show them, and a number or bytes fail all of them. -/
theorem prepare_distinctValues (hdb : db.Consistent) (ht : db.table? resources = some t)
    (halone : ∀ entry ∈ sideTables, db.table? entry.1 = none)
    (htexts : ∀ row ∈ t.rows, ∃ id, row.cell "id" = .text id)
    (honce : (t.rows.map (·.cell "id")).Nodup) (hready : db.prepare schema = .ok ready)
    (hscalar : schema.isScalar field = true) (hname : checkName field = .ok ())
    (hfield : field = "id" ∨ IsFieldColumn field)
    (hthumbnail : thumbnailColumn ∉ ready.columnNames resources)
    (hid : "id" ∈ ready.columnNames resources) (hspelled : field ∈ ready.columnNames resources)
    (config : Config) (n : Nat) :
    ((∀ row ∈ ready.rows resources, (row.cell field).IsTextOrNull) →
      (∀ values : List String, values.Nodup →
        (∀ value ∈ values, value ≠ "" ∧ ∃ id, ready.Reports id field value) →
          values.length ≤ n) →
      ∃ found, ready.distinctValues schema config ⟨field, some n⟩ = .ok found ∧
        (found.map Bucket.value).Nodup ∧
        ∀ value k, ⟨value, k⟩ ∈ found ↔ value ≠ "" ∧ 0 < k ∧ ∃ ids : List String, ids.Nodup ∧
          ids.length = k ∧ ∀ id, id ∈ ids ↔ ready.Reports id field value) ∧
    ((∃ row ∈ ready.rows resources, ¬(row.cell field).IsTextOrNull) →
      (ready.rows resources).length ≤ n →
      ready.distinctValues schema config ⟨field, some n⟩ =
        .error (.engine (.unexpectedType field))) := by
  obtain ⟨u, hlisted, hcolumns, hrows⟩ :=
    exists_listed hdb ht halone htexts honce hready hthumbnail hid
  rw [hcolumns] at hspelled
  rw [hrows]
  constructor
  · intro hcells hlimit
    exact hlisted.distinctValues_texts hscalar hname hfield hspelled hcells config hlimit
  · rintro ⟨row, hrow, hcell⟩ hlimit
    exact hlisted.distinctValues_unread hscalar hname hspelled hrow hcell config hlimit

/-! A title among numbers -/

def titlesSource (declaration : String) (title : Cell) : TableSource where
  name := resources
  columns := [("id", "TEXT PRIMARY KEY"), (titleField, declaration)]
  rows := [[.text "a", title]]
  unique := []

def titles (affinity : Affinity) (title : Cell) : Table where
  name := resources
  columns := [⟨"id", .text, false, .null⟩, ⟨titleField, affinity, false, .null⟩]
  rowKey := none
  rows := [⟨[("id", .text "a"), (titleField, title)]⟩]
  indexes := [⟨"", [.column "id"], true⟩]
  rejections := []

private theorem ofSources_titles :
    ofSources [titlesSource "TEXT" (.text "T")] = .ok ⟨[titles .text (.text "T")]⟩ ∧
      ofSources [titlesSource "INTEGER" (.int 5)] = .ok ⟨[titles .integer (.int 5)]⟩ := by
  decide +kernel

private theorem prepare_titles :
    ((⟨[titles .text (.text "T")]⟩ : Database).prepare .aardvark).map (fun ready =>
      (ready.columnNames resources,
        (ready.rows resources).map fun row => (row.cell "id", row.cell titleField))) =
      .ok (resourceNames, [(.text "a", .text "T")]) := by
  decide +kernel

theorem prepare_distinctValues_titles : ∃ db ready,
    ofSources [titlesSource "TEXT" (.text "T")] = .ok db ∧ db.prepare .aardvark = .ok ready ∧
      ∃ found, ready.distinctValues .aardvark default ⟨titleField, some 1⟩ = .ok found ∧
        (found.map Bucket.value).Nodup ∧
        ∀ value k, ⟨value, k⟩ ∈ found ↔ value ≠ "" ∧ 0 < k ∧ ∃ ids : List String, ids.Nodup ∧
          ids.length = k ∧ ∀ id, id ∈ ids ↔ ready.Reports id titleField value := by
  obtain ⟨ready, hready, hseen⟩ := map_eq_ok.mp prepare_titles
  obtain ⟨hnames, hrows⟩ := Prod.mk.inj hseen
  have hdb := consistent_ofSources ofSources_titles.1
  have ht : (⟨[titles .text (.text "T")]⟩ : Database).table? resources =
      some (titles .text (.text "T")) := rfl
  have halone : ∀ entry ∈ sideTables,
      (⟨[titles .text (.text "T")]⟩ : Database).table? entry.1 = none := by
    decide
  have htexts : ∀ row ∈ (titles .text (.text "T")).rows, ∃ id, row.cell "id" = .text id :=
    List.forall_mem_singleton.mpr ⟨"a", rfl⟩
  have honce : ((titles .text (.text "T")).rows.map (·.cell "id")).Nodup := List.nodup_singleton _
  have hthumbnail : thumbnailColumn ∉ ready.columnNames resources := by
    rw [hnames]
    decide
  have hid : "id" ∈ ready.columnNames resources := by
    rw [hnames]
    decide
  have hspelled : titleField ∈ ready.columnNames resources := by
    rw [hnames]
    decide
  have hfield : titleField = "id" ∨ IsFieldColumn titleField := Or.inr (by decide)
  have hcount : (ready.rows resources).length = 1 := by
    have hlength := congrArg List.length hrows
    rwa [List.length_map] at hlength
  have hcells : ∀ row ∈ ready.rows resources, (row.cell titleField).IsTextOrNull := by
    intro row hrow
    have hmem := List.mem_map_of_mem (f := fun row : Row => (row.cell "id", row.cell titleField)) hrow
    rw [hrows, List.mem_singleton, Prod.mk.injEq] at hmem
    exact Or.inr ⟨"T", hmem.2⟩
  refine ⟨_, ready, ofSources_titles.1, hready, ?_⟩
  refine (prepare_distinctValues hdb ht halone htexts honce hready (by decide) (by decide) hfield
    hthumbnail hid hspelled default 1).1 hcells fun values hnodup hvalues => ?_
  obtain ⟨u, hlisted, hcolumns, hlistedRows⟩ :=
    exists_listed hdb ht halone htexts honce hready hthumbnail hid
  rw [hcolumns] at hspelled
  rw [hlistedRows] at hcount
  rw [← hcount]
  exact hlisted.length_values_le hfield hspelled hnodup fun value hvalue => (hvalues value hvalue).2

/-- A number that is read back as a text is not counted, and fails the values of its column. -/
theorem prepare_distinctValues_fails :
    ofSources [titlesSource "INTEGER" (.int 5)] = .ok ⟨[titles .integer (.int 5)]⟩ ∧
      ((⟨[titles .integer (.int 5)]⟩ : Database).prepare .aardvark).map (fun ready =>
        ((ready.hydrate ["a"]).map fun found => found.map fun r => r.value? titleField,
          ready.distinctValues .aardvark default ⟨titleField, some 10⟩)) =
        .ok (.ok [some "5"], .error (.engine (.unexpectedType titleField))) := by
  refine ⟨ofSources_titles.2, ?_⟩
  decide +kernel

end Database

end Gazetteer
