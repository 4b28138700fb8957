import Mathlib
import Gazetteer.Proofs.Migration.Additive
/-!
How the rows of the resources hang together when envelopes are filled in: an envelope goes to all
rows of its id, so that the last one of an id is shared by them, and a single row that should get
one but has no text for its id keeps all rows from getting theirs.
-/

namespace Gazetteer

open Layout

theorem Cell.null_store (affinity : Affinity) : Cell.null.store affinity = .null := by
  cases affinity <;> rfl

namespace Table

variable {t : Table}

theorem fillRow_append (t : Table) (entries : List (String × Envelope))
    (entry : String × Envelope) (r : Row) :
    t.fillRow (entries ++ [entry]) r = changedRow "id" (.text entry.1)
      (t.kept (Database.geometryCells (some entry.2))) (t.fillRow entries r) := by
  rw [fillRow, List.foldl_append]
  rfl

def lastUnder? (entries : List (String × Envelope)) (id : Cell) : Option Envelope :=
  (entries.filterMap fun entry =>
    if id.equals (.text entry.1) then some entry.2 else none).getLast?

theorem lastUnder?_append (entries : List (String × Envelope)) (entry : String × Envelope)
    (id : Cell) : lastUnder? (entries ++ [entry]) id =
      if id.equals (.text entry.1) then some entry.2 else lastUnder? entries id := by
  rw [lastUnder?, List.filterMap_append, List.filterMap_cons, List.filterMap_nil]
  cases id.equals (.text entry.1) with
  | true => exact List.getLast?_concat
  | false => exact congrArg List.getLast? (List.append_nil _)

theorem fillRow_geometry (t : Table) (entries : List (String × Envelope)) (r : Row) :
    geometryColumns.map (t.fillRow entries r).cell =
      match lastUnder? entries (r.cell "id") with
      | some e => (Database.geometryCells (some e)).map fun entry =>
          entry.2.store (t.affinity entry.1)
      | none => geometryColumns.map r.cell := by
  -- the last entry decides, so the induction goes from the end of the list
  induction entries using List.reverseRecOn with
  | nil => rfl
  | append_singleton entries entry ih =>
      have hid : (t.fillRow entries r).cell "id" = r.cell "id" := t.fillRow_cell _ r (by decide)
      rw [fillRow_append, changedRow, hid, lastUnder?_append]
      split
      · exact Row.cells_update_kept _ entry.2
      · exact ih

/-- Whether some row should get an envelope and has no text for its id. -/
def Blocked (t : Table) : Prop :=
  ∃ r ∈ t.rows, (Database.filling? (r.cell boxField)).isSome = true ∧
    (r.cell "id").string? = none

/-- The envelope that the last row of an id should get, of those that should get one. -/
def lastFilling? (t : Table) (id : Cell) : Option Envelope :=
  (t.rows.filterMap fun r =>
    if (r.cell "id").equals id then Database.filling? (r.cell boxField) else none).getLast?

end Table

namespace Database

variable {db later ready : Database} {schema : Schema} {t v : Table} {added : List Column}

theorem fillings_eq (t : Table) : fillings t = t.rows.filterMap fun r =>
    (awaited? r).bind fun e => (r.cell "id").string?.map (·, e) := by
  rw [fillings, List.filterMap_filter]
  refine List.filterMap_congr fun r _ => ?_
  rw [awaited?, candidate?]
  split <;> rfl

/-! The envelopes of a table that had no columns for them -/

namespace Widened

theorem cell_extend (h : Widened schema t v added) (r : Row) (column : String) :
    (r.extend added).cell column = r.cell column :=
  r.cell_extend_of_null column h.fallback

theorem awaited?_extend (h : Widened schema t v added) (hconsistent : t.Consistent)
    (hgeometry : ∀ column ∈ geometryColumns, t.has column = false) {r : Row} (hr : r ∈ t.rows) :
    awaited? (r.extend added) = filling? (r.cell boxField) := by
  have hnull : (r.extend added).cell "geom_minx" = .null := by
    rw [h.cell_extend]
    exact cell_of_no_geometry hconsistent hgeometry hr (by decide)
  rw [awaited?_eq hnull, h.cell_extend]

theorem blocked_iff (h : Widened schema t v added) (hconsistent : t.Consistent)
    (hgeometry : ∀ column ∈ geometryColumns, t.has column = false) :
    t.Blocked ↔ ∃ r ∈ v.rows, ∃ e, awaited? r = some e ∧ ∀ id, r.cell "id" ≠ .text id := by
  have hstring (c : Cell) : c.string? = none ↔ ∀ id, c ≠ .text id := by
    simp only [Option.eq_none_iff_forall_ne_some, Ne, Cell.string?_eq_some]
  have hawaited := fun r hr => h.awaited?_extend (r := r) hconsistent hgeometry hr
  rw [Table.Blocked, h.grown.rows]
  constructor
  · rintro ⟨r, hr, hfilling, hid⟩
    obtain ⟨e, he⟩ := Option.isSome_iff_exists.mp hfilling
    refine ⟨r.extend added, List.mem_map_of_mem hr, e, (hawaited r hr).trans he, ?_⟩
    rwa [h.cell_extend, ← hstring]
  · rintro ⟨_, hmem, e, he, hid⟩
    obtain ⟨r, hr, rfl⟩ := List.mem_map.mp hmem
    rw [hawaited r hr] at he
    rw [h.cell_extend, ← hstring] at hid
    exact ⟨r, hr, Option.isSome_of_mem he, hid⟩

/-- Unless a row is in the way, what is filled in for an id is what its rows should get. -/
theorem lastUnder?_fillings (h : Widened schema t v added) (hconsistent : t.Consistent)
    (hgeometry : ∀ column ∈ geometryColumns, t.has column = false) (hblocked : ¬t.Blocked)
    (id : Cell) : Table.lastUnder? (fillings v) id = t.lastFilling? id := by
  rw [Table.lastUnder?, fillings_eq, h.grown.rows, List.filterMap_map, List.filterMap_filterMap,
    Table.lastFilling?]
  refine congrArg List.getLast? (List.filterMap_congr fun r hr => ?_)
  rw [Function.comp_apply, h.awaited?_extend hconsistent hgeometry hr, h.cell_extend]
  cases hfilling : filling? (r.cell boxField) with
  | none => simp
  | some e =>
      cases hstring : (r.cell "id").string? with
      | none => exact absurd ⟨r, hr, Option.isSome_of_mem hfilling, hstring⟩ hblocked
      | some s =>
          rw [Cell.string?_eq_some.mp hstring, Cell.equals_comm]
          rfl

end Widened

/-! Rows that hang together -/

/-- What a row of the resources, then without columns for an envelope, has become in the
table `u`. -/
structure Coupled (t u : Table) (old new : Row) : Prop where
  text : ∀ column, Text.fold column ∉ geometryColumns → new.cell column = old.cell column
  blocked : t.Blocked → ∀ column ∈ geometryColumns, new.cell column = .null
  last : ¬t.Blocked → geometryColumns.map new.cell =
    (geometryCells (t.lastFilling? (old.cell "id"))).map fun entry =>
      entry.2.store (u.affinity entry.1)
  /-- A row gets the envelope of its own text if its id has no other. -/
  own : ¬t.Blocked → ∀ id, old.cell "id" = .text id → ∀ e, filling? (old.cell boxField) = some e →
    (∀ r ∈ t.rows, r.cell "id" = .text id → ∀ other, filling? (r.cell boxField) = some other →
      other = e) →
    geometryColumns.map new.cell =
      (geometryCells (some e)).map fun entry => entry.2.store (u.affinity entry.1)

theorem lastFilling?_of_unique {r : Row} (hr : r ∈ t.rows) {id : String}
    (hid : r.cell "id" = .text id) {e : Envelope} (he : filling? (r.cell boxField) = some e)
    (hunique : ∀ r ∈ t.rows, r.cell "id" = .text id → ∀ other,
      filling? (r.cell boxField) = some other → other = e) :
    t.lastFilling? (.text id) = some e := by
  have hmem : e ∈ t.rows.filterMap fun r =>
      if (r.cell "id").equals (.text id) then filling? (r.cell boxField) else none := by
    refine List.mem_filterMap.mpr ⟨r, hr, ?_⟩
    rw [if_pos (Cell.equals_text_iff.mpr hid), he]
  have hne := List.ne_nil_of_mem hmem
  rw [Table.lastFilling?, List.getLast?_eq_some_getLast hne]
  obtain ⟨found, hfound, hlast⟩ := List.mem_filterMap.mp (List.getLast_mem hne)
  rw [Option.ite_none_right_eq_some, Cell.equals_text_iff] at hlast
  exact congrArg some (hunique found hfound hlast.1 _ hlast.2)

theorem Widened.coupled_filled (h : Widened schema t v added) (hconsistent : t.Consistent)
    (hgeometry : ∀ column ∈ geometryColumns, t.has column = false) (hblocked : ¬t.Blocked) :
    List.Forall₂ (Coupled t (v.filled (fillings v))) t.rows (v.filled (fillings v)).rows := by
  have hrows : (v.filled (fillings v)).rows =
      t.rows.map fun r => v.fillRow (fillings v) (r.extend added) := by
    rw [Table.filled, h.grown.rows, List.map_map]
    rfl
  rw [hrows, List.forall₂_map_right_iff, List.forall₂_same]
  intro r hr
  have hlast : geometryColumns.map (v.fillRow (fillings v) (r.extend added)).cell =
      (geometryCells (t.lastFilling? (r.cell "id"))).map fun entry =>
        entry.2.store (v.affinity entry.1) := by
    rw [Table.fillRow_geometry, h.cell_extend,
      h.lastUnder?_fillings hconsistent hgeometry hblocked]
    cases t.lastFilling? (r.cell "id") with
    | some e => rfl
    | none =>
        simp only [geometryCells, List.map_map, Function.comp_def, Cell.null_store]
        refine List.map_congr_left fun column hcolumn => ?_
        rw [h.cell_extend]
        exact cell_of_no_geometry hconsistent hgeometry hr hcolumn
  refine ⟨fun column hcolumn => ?_, fun hnot => absurd hnot hblocked, fun _ => hlast,
    fun _ id hid e he hunique => ?_⟩
  · rw [Table.fillRow_cell _ _ _ hcolumn, h.cell_extend]
  · rw [hid, lastFilling?_of_unique hr hid he hunique] at hlast
    exact hlast

theorem Widened.coupled_unfilled (h : Widened schema t v added) (hconsistent : t.Consistent)
    (hgeometry : ∀ column ∈ geometryColumns, t.has column = false)
    (hnone : ¬t.Blocked → ∀ r ∈ t.rows, filling? (r.cell boxField) = none) :
    List.Forall₂ (Coupled t v) t.rows v.rows := by
  rw [h.grown.rows, List.forall₂_map_right_iff, List.forall₂_same]
  intro r hr
  have hcells : ∀ column ∈ geometryColumns, (r.extend added).cell column = .null := by
    intro column hcolumn
    rw [h.cell_extend]
    exact cell_of_no_geometry hconsistent hgeometry hr hcolumn
  refine ⟨fun column _ => h.cell_extend r column, fun _ => hcells, fun hblocked => ?_,
    fun hblocked id hid e he hunique => ?_⟩
  · have hlast : t.lastFilling? (r.cell "id") = none := by
      rw [Table.lastFilling?, List.getLast?_eq_none_iff, List.filterMap_eq_nil_iff]
      intro other hother
      rw [hnone hblocked other hother, ite_self]
    rw [hlast]
    simp only [geometryCells, List.map_map, Function.comp_def, Cell.null_store]
    exact List.map_congr_left hcells
  · rw [hnone hblocked r hr] at he
    cases he

/-- Where no table of resources had columns for an envelope, each row has the last envelope of
its id, unless a row that should get one has no text for its id: then no row has any. -/
theorem prepare_couplesEnvelopes (hdb : db.Consistent) (ht : db.table? resources = some t)
    (hgeometry : ∀ column ∈ geometryColumns, t.has column = false)
    (hready : db.prepare schema = .ok ready) :
    ∃ u, ready.table? resources = some u ∧ List.Forall₂ (Coupled t u) t.rows u.rows ∧
      ∀ column ∈ geometryColumns, ¬Occupied schema column → u.affinity column = .real := by
  obtain ⟨later, hcompletes, hbackfill⟩ := prepare_eq_ok hready
  obtain ⟨v, added, hv, hwidened⟩ := hcompletes.widened hdb ht hgeometry
  have hconsistent := hdb t (mem_of_table? ht)
  have hlater := hcompletes.grows.consistent hdb
  have hreal : ∀ column ∈ geometryColumns, ¬Occupied schema column →
      v.affinity column = .real := by
    intro column hcolumn hfree
    obtain ⟨c, hc, hreal | hoccupied⟩ := hwidened.edges column hcolumn
    · rw [Table.affinity, hc]
      exact hreal
    · exact absurd hoccupied hfree
  rcases hbackfill with ⟨n, hfill⟩ | ⟨rfl, fault, hfault⟩
  · obtain ⟨found, hfills⟩ := fills_of_backfill hlater hfill
    obtain rfl : v = found := Option.some.inj (hv.symm.trans hfills.table)
    have hblocked : ¬t.Blocked := by
      rw [hwidened.blocked_iff hconsistent hgeometry]
      rintro ⟨r, hr, e, he, hnot⟩
      obtain ⟨id, hid⟩ := hfills.ids r hr e he
      exact hnot id hid
    refine ⟨_, ?_, hwidened.coupled_filled hconsistent hgeometry hblocked, hreal⟩
    rw [hfills.put]
    exact table?_put_self hv rfl
  · refine ⟨v, hv, hwidened.coupled_unfilled hconsistent hgeometry fun hblocked r hr => ?_, hreal⟩
    -- if a row should get an envelope and none is in the way, filling in succeeds
    by_contra hsome
    have hbox : t.has boxField = true := by
      refine hconsistent.has_of_ne_null hr fun hnull => hsome ?_
      rw [hnull]
      rfl
    have hids : ∀ r ∈ v.rows, ∀ e, awaited? r = some e → ∃ id, r.cell "id" = .text id := by
      intro r hr e he
      by_contra hnot
      rw [not_exists] at hnot
      exact hblocked ((hwidened.blocked_iff hconsistent hgeometry).mpr ⟨r, hr, e, he, hnot⟩)
    obtain ⟨filled, n, hfill, -⟩ :=
      backfill_filled hlater hv hwidened.fillable (hwidened.grown.has hbox) hids
    rw [hfill] at hfault
    cases hfault

/-! A row without an id, and two rows of one id -/

def blockedSource : TableSource where
  name := resources
  columns := [("id", "TEXT PRIMARY KEY"), (boxField, "TEXT")]
  rows := [[.null, .text "ENVELOPE(1,2,4,3)"], [.text "a", .text "ENVELOPE(1,2,4,3)"]]
  unique := []

def twinsSource : TableSource where
  name := resources
  columns := [("id", "TEXT"), (boxField, "TEXT")]
  rows := [[.null, .text "none"], [.text "a", .text "ENVELOPE(1,2,4,3)"],
    [.text "a", .text "ENVELOPE(5,6,8,7)"]]
  unique := []

def twins : Table where
  name := resources
  columns := [⟨"id", .text, false, .null⟩, ⟨boxField, .text, false, .null⟩]
  rowKey := none
  rows := [⟨[("id", .null), (boxField, .text "none")]⟩,
    ⟨[("id", .text "a"), (boxField, .text "ENVELOPE(1,2,4,3)")]⟩,
    ⟨[("id", .text "a"), (boxField, .text "ENVELOPE(5,6,8,7)")]⟩]
  indexes := []
  rejections := []

theorem ofSources_twins : ofSources [twinsSource] = .ok ⟨[twins]⟩ := by
  decide +kernel

/-- The ids and edges of the resources, of a database brought to the layout. -/
def preparedEdges (db : Database) : Except Fault (List (Cell × List Cell)) :=
  (db.prepare .aardvark).map fun ready =>
    (ready.rows resources).map fun r => (r.cell "id", geometryColumns.map r.cell)

theorem prepare_twins : preparedEdges ⟨[twins]⟩ =
    .ok [(.null, [.null, .null, .null, .null]),
      (.text "a", [.real 5, .real 7, .real 6, .real 8]),
      (.text "a", [.real 5, .real 7, .real 6, .real 8])] := by
  decide +kernel

theorem prepare_couplesEnvelopes_twins : ∃ ready,
    ofSources [twinsSource] = .ok ⟨[twins]⟩ ∧
      (⟨[twins]⟩ : Database).prepare .aardvark = .ok ready ∧
      ∃ u, ready.table? resources = some u ∧
        List.Forall₂ (Coupled twins u) twins.rows u.rows ∧
        ∀ column ∈ geometryColumns, ¬Occupied .aardvark column → u.affinity column = .real := by
  obtain ⟨ready, hready, -⟩ := map_eq_ok.mp prepare_twins
  have hconsistent := consistent_ofSources ofSources_twins
  have ht : (⟨[twins]⟩ : Database).table? resources = some twins := rfl
  have hgeometry : ∀ column ∈ geometryColumns, twins.has column = false := by
    decide
  exact ⟨ready, ofSources_twins, hready,
    prepare_couplesEnvelopes hconsistent ht hgeometry hready⟩

/-- A row without an id keeps another from its envelope, and a row of the same id puts its own
there. -/
theorem prepare_blocksEnvelope :
    filling? (.text "ENVELOPE(1,2,4,3)") = some ⟨1, 3, 2, 4⟩ ∧
      (ofSources [blockedSource]).bind preparedEdges =
        .ok [(.null, [.null, .null, .null, .null]), (.text "a", [.null, .null, .null, .null])] ∧
      ofSources [twinsSource] = .ok ⟨[twins]⟩ ∧ preparedEdges ⟨[twins]⟩ =
        .ok [(.null, [.null, .null, .null, .null]),
          (.text "a", [.real 5, .real 7, .real 6, .real 8]),
          (.text "a", [.real 5, .real 7, .real 6, .real 8])] := by
  refine ⟨?_, ?_, ofSources_twins, prepare_twins⟩ <;> decide +kernel

end Database

end Gazetteer
