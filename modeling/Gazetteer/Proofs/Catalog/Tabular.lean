import Mathlib
import Gazetteer.Proofs.Catalog.Dossier
import Gazetteer.Proofs.Catalog.Room
import Gazetteer.Proofs.Interchange.Table
/-!
Imports of tables of resources: every row with an id refreshes the dossier of that id, and no other
one.
-/

namespace Gazetteer

open Layout

/-! Values that are stored as a cell gives them -/

private theorem keptValues_splitCell (cell : String) :
    Database.keptValues (splitCell cell) = splitCell cell := by
  have hall : (splitCell cell).filter (fun value => !Text.allBlank value) = splitCell cell :=
    List.filter_eq_self.mpr fun value hvalue => by rw [allBlank_of_mem_splitCell hvalue]; rfl
  rw [Database.keptValues, hall, eraseDups_of_nodup]
  exact (pairwise_splitCell cell).imp fun hlt heq => absurd (heq ▸ hlt) (String.lt_irrefl _)

/-- A resource whose values are stored as they are. -/
def Resource.Plain (r : Resource) : Prop :=
  r.repeatables.filterMap Resource.kept? = r.repeatables

theorem FieldCells.plain_described (cells : FieldCells) (id : String) :
    (cells.described id).Plain := by
  refine Dict.ext_get? fun field => ?_
  rw [Dict.get?_filterMap]
  cases hget : (cells.described id).repeatables.get? field with
  | none => rfl
  | some values =>
      have hentry := Dict.mem_of_mem_ofList (Dict.mem_entries_iff.mpr hget)
      obtain ⟨cell, -, hcell⟩ := List.mem_filterMap.mp hentry
      rw [FieldCells.values?] at hcell
      split at hcell
      next hgiven =>
        obtain ⟨-, rfl⟩ := Prod.mk.inj (Option.some_inj.mp hcell)
        have hne : splitCell (Text.trim cell.2) ≠ [] := by
          simpa using (Bool.and_eq_true_iff.mp hgiven).2
        rw [Option.bind_some, Resource.kept?, keptValues_splitCell, if_neg hne]
      next => cases hcell

/-! What rows tell -/

abbrev Given := Resource × List Distribution

namespace Dossier

def put (dossiers : String → Dossier) (w : Given) : String → Dossier :=
  Function.update dossiers w.1.id ((dossiers w.1.id).refreshed w.1 w.2)

/-- The dossiers after a row of a table of resources.  A row without an id changes none. -/
def afterRow (config : Config) (dossiers : String → Dossier) (cells : FieldCells) :
    String → Dossier :=
  match cells.cell? "id" with
  | none => dossiers
  | some id =>
      Function.update dossiers id
        ((dossiers id).refreshed (cells.described id) (cells.references config))

theorem foldl_afterRow (config : Config) (rows : List FieldCells) (dossiers : String → Dossier) :
    rows.foldl (afterRow config) dossiers =
      (rows.filterMap (FieldCells.resource? .aardvark config)).foldl put dossiers := by
  rw [List.foldl_filterMap]
  refine congrArg (fun step => rows.foldl step dossiers) (funext fun m => funext fun cells => ?_)
  rw [afterRow, FieldCells.resource?_eq]
  cases cells.cell? "id" <;> rfl

end Dossier

/-! Runs of refreshed resources -/

namespace Ledger

variable {n : Nat} {L M N : Ledger} {written : List Given}

/-- A run that refreshes resources, one after the other. -/
inductive Refreshes : List Given → Ledger → Ledger → Prop
  | nil (L : Ledger) : Refreshes [] L L
  | cons {w : Given} {rest : List Given} {L M N : Ledger} (haccepted : Schema.Accepts .aardvark w.1)
      (hplain : w.1.Plain) (hreplace : L.replace? w.1 w.2 .metadata = some M)
      (h : Refreshes rest M N) : Refreshes (w :: rest) L N

namespace Refreshes

theorem dossier (h : Refreshes written L M) : M.dossier = written.foldl Dossier.put L.dossier := by
  induction h with
  | nil L => rfl
  | cons _ hplain hreplace _ ih =>
      rw [ih, List.foldl_cons, dossier_replace? hplain hreplace]
      rfl

theorem storedFor (h : Refreshes written L M) {id : String} (hid : ∀ w ∈ written, w.1.id ≠ id) :
    M.database.storedFor id = L.database.storedFor id := by
  induction h with
  | nil L => rfl
  | cons _ _ hreplace _ ih =>
      obtain ⟨hfirst, hrest⟩ := List.forall_mem_cons.mp hid
      rw [ih hrest, storedFor_replace? hreplace (Ne.symm hfirst)]

theorem images (h : Refreshes written L M) :
    M.thumbnails = L.thumbnails ∧ M.staticMaps = L.staticMaps := by
  induction h with
  | nil L => exact ⟨rfl, rfl⟩
  | cons _ _ hreplace _ ih =>
      obtain ⟨placed, -, rfl⟩ := Option.map_eq_some_iff.mp hreplace
      exact ih

end Refreshes

/-- Where there is room for the distributions, resources can be refreshed. -/
theorem exists_refreshes (hL : L.Within n)
    (hroom : n + (written.map fun w => w.2.length).sum < 2 ^ 63)
    (hwritten : ∀ w ∈ written, Schema.Accepts .aardvark w.1 ∧ w.1.Plain) :
    ∃ M : Ledger, M.Within (n + (written.map fun w => w.2.length).sum) ∧
      Refreshes written L M := by
  induction written generalizing n L with
  | nil => exact ⟨L, hL, .nil L⟩
  | cons w rest ih =>
      obtain ⟨⟨haccepted, hplain⟩, hrest⟩ := List.forall_mem_cons.mp hwritten
      rw [List.map_cons, List.sum_cons] at hroom ⊢
      obtain ⟨placed, hplaced⟩ := hL.placements.exists_append? (by omega) w.1.id w.2
      have hreplace : L.replace? w.1 w.2 .metadata =
          some { L.cleared w.1.id .metadata with
            resources := (L.cleared w.1.id .metadata).resources ++ [w.1]
            placements := placed } := by
        rw [replace?]
        exact congrArg (Option.map _) hplaced
      have hwithin := hL.replace? haccepted hreplace
      obtain ⟨M, hM, hrun⟩ := ih hwithin (by omega) hrest
      rw [Nat.add_assoc] at hM
      exact ⟨M, hM, .cons haccepted hplain hreplace hrun⟩

end Ledger

/-! Rows -/

namespace FieldCells

variable {config : Config} {rows : List FieldCells}

def written (config : Config) (rows : List FieldCells) : List Given :=
  rows.filterMap (resource? .aardvark config)

theorem length_written (config : Config) (rows : List FieldCells) :
    (written config rows).length = rows.countP fun row => (row.cell? "id").isSome := by
  rw [written, List.length_filterMap_eq_countP]
  refine List.countP_congr fun row _ => ?_
  rw [resource?_eq, Option.isSome_map]

theorem sum_given (config : Config) (rows : List FieldCells) :
    (rows.map (given config .resources)).sum =
      ((written config rows).map fun w => w.2.length).sum := by
  induction rows with
  | nil => rfl
  | cons row rest ih =>
      rw [List.map_cons, List.sum_cons, ih, given]
      simp only [written, List.filterMap_cons]
      cases row.resource? .aardvark config with
      | none => exact Nat.zero_add _
      | some w => rfl

theorem accepted_written : ∀ w ∈ written config rows,
    Schema.Accepts .aardvark w.1 ∧ w.1.Plain := by
  intro w hw
  obtain ⟨row, -, hrow⟩ := List.mem_filterMap.mp hw
  refine ⟨(taken_resource? hrow).accepted, ?_⟩
  rw [resource?_eq] at hrow
  obtain ⟨id, -, rfl⟩ := Option.map_eq_some_iff.mp hrow
  exact plain_described row id

theorem id_of_mem_written {w : Given} (hw : w ∈ written config rows) :
    ∃ row ∈ rows, row.cell? "id" = some w.1.id := by
  obtain ⟨row, hrow, hresource⟩ := List.mem_filterMap.mp hw
  rw [resource?_eq] at hresource
  obtain ⟨id, hid, rfl⟩ := Option.map_eq_some_iff.mp hresource
  exact ⟨row, hrow, hid⟩

end FieldCells

/-- The rows of a table refresh the resources that they give. -/
theorem Ledger.Refreshes.importRows {config : Config} {rows : List FieldCells} {L M : Ledger}
    (h : Refreshes (FieldCells.written config rows) L M) (added : Nat) :
    rows.foldl (Database.importResourceRow .aardvark config) (L.database, added) =
      (M.database, added + (FieldCells.written config rows).length) := by
  induction rows generalizing L added with
  | nil =>
      cases h
      rfl
  | cons row rest ih =>
      rw [FieldCells.written, List.filterMap_cons] at h ⊢
      rw [List.foldl_cons, Database.importResourceRow]
      cases hrow : row.resource? .aardvark config with
      | none =>
          rw [hrow] at h
          exact ih h added
      | some w =>
          rw [hrow] at h
          cases h with
          | @cons _ _ _ K _ haccepted _ hreplace hrest =>
              have hrefresh : L.database.refresh .aardvark w.1 w.2 = .ok K.database :=
                refresh_eq_ok.mpr ⟨haccepted, K, hreplace, rfl⟩
              simp only [hrefresh]
              rw [ih hrest, List.length_cons, Nat.add_right_comm, Nat.add_assoc]
              rfl

namespace Catalog

variable {c : Catalog} {L : Ledger} {n : Nat} {rows : List TableRow}
  {aliases : Option (Dict String)}

def cellsOf (c : Catalog) (rows : List TableRow) (aliases : Option (Dict String)) :
    List FieldCells :=
  rows.map (FieldCells.ofRow (aliases.getD c.config.aliases) .aardvark)

theorem importTabular_refreshes {M : Ledger} (hc : c.database = some L.database)
    (hkind : TableKind.ofRows (aliases.getD c.config.aliases) .aardvark rows = .resources)
    (h : Ledger.Refreshes (FieldCells.written c.config (c.cellsOf rows aliases)) L M) :
    c.importTabular rows aliases = .ok (c.holding M,
      ⟨.resources, (FieldCells.written c.config (c.cellsOf rows aliases)).length⟩) := by
  have hrows := h.importRows 0
  rw [cellsOf] at hrows
  refine write_database hc (.ok (_, _)) ?_
  rw [schema, Database.importRows, hkind]
  simp only [hrows, Nat.zero_add]
  rfl

/-- One row taken into a catalog without resources, where it gives a resource. -/
theorem importTabular_fresh {config : Config} {row : TableRow} {id : String} {r : Resource}
    (hkind : TableKind.ofRows (aliases.getD config.aliases) .aardvark [row] = .resources)
    (hstored : ((FieldCells.ofRow (aliases.getD config.aliases) .aardvark row).resource? .aardvark
      config).bind (fun w => (Ledger.empty.replace? w.1 w.2 .metadata).bind (·.resource? id)) =
        some r) :
    ∃ c, (fresh config none).importTabular [row] aliases = .ok (c, ⟨.resources, 1⟩) ∧
      c.get id = .ok r := by
  obtain ⟨w, hrow, hstored⟩ := Option.bind_eq_some_iff.mp hstored
  obtain ⟨M, hreplace, hr⟩ := Option.bind_eq_some_iff.mp hstored
  have hwritten : FieldCells.written config ((fresh config none).cellsOf [row] aliases) = [w] :=
    List.filterMap_cons_some hrow
  obtain ⟨haccepted, hplain⟩ :=
    FieldCells.accepted_written w (hwritten ▸ List.mem_singleton_self w)
  have hrun : Ledger.Refreshes [w] Ledger.empty M :=
    .cons haccepted hplain hreplace (.nil M)
  have himport : (fresh config none).importTabular [row] aliases =
      .ok ((fresh config none).holding M, ⟨.resources,
        (FieldCells.written config ((fresh config none).cellsOf [row] aliases)).length⟩) :=
    importTabular_refreshes (fresh_database config none) hkind (hwritten ▸ hrun)
  rw [hwritten] at himport
  refine ⟨_, himport, ?_⟩
  rw [get_database rfl (Ledger.sound_empty.replace? haccepted hreplace), hr]

end Catalog

theorem Session.given_resources {s : Session} {rows : List TableRow}
    {aliases : Option (Dict String)}
    (hkind : TableKind.ofRows (aliases.getD s.catalog.config.aliases) .aardvark rows = .resources) :
    s.given (.importTabular rows aliases) = ((FieldCells.written s.catalog.config
      (s.catalog.cellsOf rows aliases)).map fun w => w.2.length).sum := by
  rw [← FieldCells.sum_given, given, hkind]
  rfl

/-- What a table of resources makes of a reachable session: the rows with an id refresh the
dossiers of their ids, one after the other, and nothing else changes.  Between its bars a cell has
the values of a repeatable field, ascending and each once.  Positions are 64-bit words, so the
session may be given fewer than `2 ^ 63` distributions in all. -/
theorem Session.ReachableWith.importTabular_resources {n : Nat} {s : Session}
    (h : s.ReachableWith n) (rows : List TableRow) (aliases : Option (Dict String))
    (hkind : TableKind.ofRows (aliases.getD s.catalog.config.aliases) .aardvark rows = .resources)
    (hroom : n + s.given (.importTabular rows aliases) < 2 ^ 63) :
    let cells := s.catalog.cellsOf rows aliases
    (∀ cell : String, (splitCell cell).Pairwise (· < ·) ∧ ∀ value, value ∈ splitCell cell ↔
      value ≠ "" ∧ ∃ piece ∈ Text.pieces (· == '|') cell.toList,
        Text.trim (String.ofList piece) = value) ∧
    ∃ db c changed dossiers, s.catalog.database = some db ∧
      s.catalog.importTabular rows aliases =
        .ok (c, ⟨.resources, cells.countP fun row => (row.cell? "id").isSome⟩) ∧
      c.database = some changed ∧
      (∀ id, db.Shows id (dossiers id)) ∧
      (∀ id, changed.Shows id (cells.foldl (Dossier.afterRow s.catalog.config) dossiers id)) ∧
      (∀ id, (∀ row ∈ cells, row.cell? "id" ≠ some id) →
        changed.storedFor id = db.storedFor id) ∧
      changed.rows thumbnails = db.rows thumbnails ∧
      changed.rows staticMaps = db.rows staticMaps := by
  intro cells
  refine ⟨fun cell => ⟨pairwise_splitCell cell, fun value => mem_splitCell⟩, ?_⟩
  obtain ⟨L, hL, hc⟩ := h.stores.catalog.database
  rw [given_resources hkind] at hroom
  obtain ⟨M, hM, hrun⟩ := Ledger.exists_refreshes hL hroom FieldCells.accepted_written
  refine ⟨L.database, s.catalog.holding M, M.database, L.dossier, hc, ?_, rfl, hL.sound.shows,
    fun id => ?_, fun id hid => ?_, ?_, ?_⟩
  · rw [Catalog.importTabular_refreshes hc hkind hrun, FieldCells.length_written]
  · have hdossier := hrun.dossier
    rw [FieldCells.written, ← Dossier.foldl_afterRow] at hdossier
    exact hdossier ▸ hM.sound.shows id
  · refine hrun.storedFor fun w hw heq => ?_
    obtain ⟨row, hrow, hrowId⟩ := FieldCells.id_of_mem_written hw
    exact hid row hrow (heq ▸ hrowId)
  · rw [Ledger.rows_thumbnails, Ledger.rows_thumbnails, hrun.images.1]
  · rw [Ledger.rows_staticMaps, Ledger.rows_staticMaps, hrun.images.2]

/-! A table of which one row has no id -/

def mixedRows : List TableRow :=
  [.ofList [("ID", " a "), ("Subject", "y| x|y"), ("Title", "T"),
    ("dct_references_s", "\x7b\"http://schema.org/url\": \"v\"\x7d")],
    .ofList [("ID", " "), ("Title", "U")]]

theorem Session.importTabular_resources_mixed :
    let s := afterUpsert (.ofId "a") [⟨"url", "u", none⟩]
    let cells := s.catalog.cellsOf mixedRows none
    s.ReachableWith 1 ∧
      TableKind.ofRows s.catalog.config.aliases .aardvark mixedRows = .resources ∧
      1 + s.given (.importTabular mixedRows none) < 2 ^ 63 ∧
      ∃ db c changed dossiers, s.catalog.database = some db ∧
        s.catalog.importTabular mixedRows none = .ok (c, ⟨.resources, 1⟩) ∧
        c.database = some changed ∧ (∀ id, db.Shows id (dossiers id)) ∧
        (∀ id, changed.Shows id (cells.foldl (Dossier.afterRow s.catalog.config) dossiers id)) ∧
        (∀ id, (∀ row ∈ cells, row.cell? "id" ≠ some id) →
          changed.storedFor id = db.storedFor id) ∧
        changed.rows thumbnails = db.rows thumbnails ∧
        changed.rows staticMaps = db.rows staticMaps := by
  intro s cells
  have h : s.ReachableWith 1 := reachableWith_afterUpsert (by decide) [⟨"url", "u", none⟩]
  have hkind : TableKind.ofRows s.catalog.config.aliases .aardvark mixedRows = .resources := by
    decide +kernel
  have hroom : 1 + s.given (.importTabular mixedRows none) < 2 ^ 63 := by
    decide +kernel
  have hcount : (cells.countP fun row => (row.cell? "id").isSome) = 1 := by
    decide +kernel
  obtain ⟨-, hfound⟩ := h.importTabular_resources mixedRows none hkind hroom
  rw [hcount] at hfound
  exact ⟨h, hkind, hroom, hfound⟩

end Gazetteer
