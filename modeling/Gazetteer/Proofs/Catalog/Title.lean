import Mathlib
import Gazetteer.Proofs.Catalog.Tabular
/-!
Titles of imported rows.  A table is one of resources if some column stands for a title, whatever
its spelling, but only the cells of the field of that very name become titles.
-/

namespace Gazetteer

/-- Whether a field has one of the two names by which a table is told to have titles. -/
def isTitleLike (field : String) : Bool :=
  Text.sameLetters field titleField || Text.sameLetters field "title"

theorem isTitleLike_titleField : isTitleLike titleField = true := by
  decide

namespace FieldCells

variable {aliases : Dict String} {row : TableRow} {column v : String}

/-- Of the cells of a row only that of the one column for a title can stand under its field. -/
private theorem filter_titleField
    (honly : ∀ other ∈ row.keys, isTitleLike (fieldOfColumn aliases .aardvark other) = true →
      other = column) (hcell : row.get? column = some v) :
    ((ofRow aliases .aardvark row).filter fun cell => cell.1 == titleField) =
      if fieldOfColumn aliases .aardvark column = titleField then [(titleField, v)] else [] := by
  have hentry : row.entries.find? (fun entry => entry.1 == column) = some (column, v) := by
    obtain ⟨entry, hfound, rfl⟩ := Option.map_eq_some_iff.mp hcell
    have hkey : entry.1 = column := by simpa using List.find?_some hfound
    rw [hfound, ← hkey]
  have hfilter : row.entries.filter (fun entry =>
      fieldOfColumn aliases .aardvark entry.1 == titleField) =
        if fieldOfColumn aliases .aardvark column = titleField then [(column, v)] else [] := by
    split
    next hfield =>
      -- a column for the field of titles looks like one for titles, so it is the only one
      have hsame : ∀ entry ∈ row.entries,
          (fieldOfColumn aliases .aardvark entry.1 == titleField) = (entry.1 == column) := by
        intro entry hmem
        rw [Bool.eq_iff_iff, beq_iff_eq, beq_iff_eq]
        constructor
        · intro htitle
          exact honly entry.1 (List.mem_map_of_mem hmem) (htitle ▸ isTitleLike_titleField)
        · rintro rfl
          exact hfield
      rw [List.filter_congr hsame, filter_key row.nodup_keys, hentry, Option.toList_some]
    next hfield =>
      refine List.filter_eq_nil_iff.mpr fun entry hmem htitle => hfield ?_
      rw [beq_iff_eq] at htitle
      rw [← honly entry.1 (List.mem_map_of_mem hmem) (htitle ▸ isTitleLike_titleField), htitle]
  have hmap : (ofRow aliases .aardvark row).filter (fun cell => cell.1 == titleField) =
      (row.entries.filter fun entry =>
        fieldOfColumn aliases .aardvark entry.1 == titleField).map fun entry =>
          (fieldOfColumn aliases .aardvark entry.1, entry.2) :=
    List.filter_map
  rw [hmap, hfilter]
  split
  next hfield => rw [List.map_singleton, hfield]
  next => rfl

theorem title?_described
    (honly : ∀ other ∈ row.keys, isTitleLike (fieldOfColumn aliases .aardvark other) = true →
      other = column) (hcell : row.get? column = some v) (hblank : Text.trim v ≠ "")
    (id : String) :
    ((ofRow aliases .aardvark row).described id).title? =
      if fieldOfColumn aliases .aardvark column = titleField then some (Text.trim v) else none := by
  have hscalars : ((ofRow aliases .aardvark row).filterMap scalar?).filter
      (fun entry => entry.1 == titleField) =
        ((ofRow aliases .aardvark row).filter fun cell => cell.1 == titleField).filterMap
          scalar? := by
    rw [List.filter_filterMap, List.filterMap_filter]
    refine List.filterMap_congr fun cell _ => ?_
    cases hcell : scalar? cell with
    | none => rw [Option.filter_none, ite_self]
    | some entry => rw [Option.filter_some, fst_of_scalar? hcell]
  have hscalar : scalar? (titleField, v) = some (titleField, Text.trim v) := by
    have htaken : isTaken titleField = true := by decide
    have hfield : Schema.isScalar .aardvark titleField = true := by decide
    simp [scalar?, htaken, hfield, hblank]
  have hget : ((ofRow aliases .aardvark row).described id).title? =
      (((ofRow aliases .aardvark row).filterMap scalar?).filter
        fun entry => entry.1 == titleField).getLast?.map Prod.snd := Dict.get?_ofList _ _
  rw [hget, hscalars, filter_titleField honly hcell]
  split
  · rw [List.filterMap_cons_some hscalar]
    rfl
  · rfl

end FieldCells

/-! Single rows, whether or not they can be written -/

theorem Dossier.exists_refreshed (m : Dossier) (r : Resource) (ds : List Distribution)
    (id : String) : ∃ shown, (m.refreshed r ds).resource? id = some shown ∧ shown.id = id ∧
      shown.scalars = r.scalars :=
  ⟨_, rfl, rfl, rfl⟩

/-- What rows of a table of resources make of a database, and how many of them are written. -/
def Database.afterRows (config : Config) (db : Database) (rows : List FieldCells) :
    Database × Nat :=
  rows.foldl (importResourceRow .aardvark config) (db, 0)

theorem Database.afterRows_append (config : Config) (db : Database)
    (first more : List FieldCells) : db.afterRows config (first ++ more) =
      more.foldl (importResourceRow .aardvark config) (db.afterRows config first) :=
  List.foldl_append

namespace Ledger

variable {L M : Ledger} {config : Config} {cells : FieldCells}

/-- What a row makes of a ledger: nothing, or it refreshes the resource that it describes. -/
inductive RowStep (config : Config) (cells : FieldCells) (L : Ledger) : Ledger → Nat → Prop
  | kept : RowStep config cells L L 0
  | refreshed {id : String} {M : Ledger} (hid : cells.cell? "id" = some id)
      (haccepted : Schema.Accepts .aardvark (cells.described id))
      (hreplace : L.replace? (cells.described id) (cells.references config) .metadata = some M) :
      RowStep config cells L M 1

theorem exists_rowStep (L : Ledger) (config : Config) (cells : FieldCells) (added : Nat) :
    ∃ M n, RowStep config cells L M n ∧
      Database.importResourceRow .aardvark config (L.database, added) cells =
        (M.database, added + n) := by
  rw [Database.importResourceRow, FieldCells.resource?_eq]
  cases hid : cells.cell? "id" with
  | none => exact ⟨L, 0, .kept, rfl⟩
  | some id =>
      simp only [Option.map_some]
      cases hrefresh : L.database.refresh .aardvark (cells.described id)
          (cells.references config) with
      | error e => exact ⟨L, 0, .kept, rfl⟩
      | ok changed =>
          obtain ⟨haccepted, M, hreplace, rfl⟩ := refresh_eq_ok.mp hrefresh
          exact ⟨M, 1, .refreshed hid haccepted hreplace, rfl⟩

namespace RowStep

variable {n : Nat}

theorem sound (h : RowStep config cells L M n) (hL : L.Sound) : M.Sound := by
  cases h with
  | kept => exact hL
  | refreshed _ haccepted hreplace => exact hL.replace? haccepted hreplace

theorem dossier_of_ne (h : RowStep config cells L M n) {id : String}
    (hid : cells.cell? "id" ≠ some id) : M.dossier id = L.dossier id := by
  cases h with
  | kept => rfl
  | @refreshed own _ hown _ hreplace =>
      have hne : id ≠ own := fun heq => hid (heq ▸ hown)
      rw [dossier_replace? (cells.plain_described own) hreplace]
      exact Function.update_of_ne hne _ _

theorem resource?_of_written (h : RowStep config cells L M 1) : ∃ r,
    cells.cell? "id" = some r.id ∧ M.resource? r.id = some r ∧
      r.scalars = (cells.described r.id).scalars := by
  cases h with
  | @refreshed id _ hid _ hreplace =>
      obtain ⟨r, hr, rfl, hscalars⟩ := (L.dossier id).exists_refreshed (cells.described id)
        (cells.references config) id
      refine ⟨r, hid, ?_, hscalars⟩
      rw [← resource?_dossier, dossier_replace? (cells.plain_described r.id) hreplace, ← hr]
      exact congrArg (Dossier.resource? · r.id) (Function.update_self r.id _ _)

end RowStep

theorem Sound.exists_rows (hL : L.Sound) (config : Config) (rows : List FieldCells)
    (added : Nat) : ∃ (M : Ledger) (n : Nat), M.Sound ∧
      rows.foldl (Database.importResourceRow .aardvark config) (L.database, added) =
        (M.database, added + n) ∧
      ∀ id, (∀ row ∈ rows, row.cell? "id" ≠ some id) → M.resource? id = L.resource? id := by
  induction rows generalizing L added with
  | nil => exact ⟨L, 0, hL, rfl, fun _ _ => rfl⟩
  | cons row rest ih =>
      obtain ⟨K, k, hstep, hrow⟩ := exists_rowStep L config row added
      obtain ⟨M, n, hM, hrest, hkept⟩ := ih (hstep.sound hL) (added + k)
      refine ⟨M, k + n, hM, ?_, fun id hid => ?_⟩
      · rw [List.foldl_cons, hrow, hrest, Nat.add_assoc]
      · obtain ⟨hfirst, hlater⟩ := List.forall_mem_cons.mp hid
        rw [hkept id hlater, ← resource?_dossier, hstep.dossier_of_ne hfirst, resource?_dossier]

/-- A row that is written shows its resource, and goes on to do so unless a later row has its
id. -/
theorem Sound.exists_written (hL : L.Sound) (config : Config) (before : List FieldCells)
    (row : FieldCells) (later : List FieldCells)
    (hwritten : (L.database.afterRows config (before ++ [row])).2 =
      (L.database.afterRows config before).2 + 1) :
    ∃ (P Q : Ledger) (r : Resource), P.Sound ∧ Q.Sound ∧
      (L.database.afterRows config (before ++ [row])).1 = P.database ∧
      (L.database.afterRows config (before ++ row :: later)).1 = Q.database ∧
      row.cell? "id" = some r.id ∧ r.scalars = (row.described r.id).scalars ∧
      P.resource? r.id = some r ∧
      ((∀ other ∈ later, other.cell? "id" ≠ some r.id) → Q.resource? r.id = some r) := by
  obtain ⟨K, k, hK, hbefore, -⟩ := hL.exists_rows config before 0
  obtain ⟨P, m, hstep, hrow⟩ := K.exists_rowStep config row (0 + k)
  have hP := hstep.sound hK
  obtain ⟨Q, q, hQ, hlater, hkept⟩ := hP.exists_rows config later (0 + k + m)
  have hfirst : L.database.afterRows config before = (K.database, 0 + k) := hbefore
  have hsecond : L.database.afterRows config (before ++ [row]) = (P.database, 0 + k + m) := by
    rw [Database.afterRows_append, hfirst]
    exact hrow
  have hthird : L.database.afterRows config (before ++ row :: later) =
      (Q.database, 0 + k + m + q) := by
    rw [List.append_cons, Database.afterRows_append, hsecond, hlater]
  rw [hfirst, hsecond] at hwritten
  obtain rfl : m = 1 := Nat.add_left_cancel hwritten
  obtain ⟨r, hid, hr, hscalars⟩ := hstep.resource?_of_written
  refine ⟨P, Q, r, hP, hQ, by rw [hsecond], by rw [hthird], hid, hscalars, hr, fun hnone => ?_⟩
  rw [hkept r.id hnone, hr]

end Ledger

/-! Titles of tables -/

namespace Catalog

def afterRows (c : Catalog) (aliases : Option (Dict String)) (db : Database)
    (rows : List TableRow) : Database × Nat :=
  db.afterRows c.config (c.cellsOf rows aliases)

def fieldOf (c : Catalog) (aliases : Option (Dict String)) (column : String) : String :=
  fieldOfColumn (aliases.getD c.config.aliases) .aardvark column

def rowId? (c : Catalog) (aliases : Option (Dict String)) (row : TableRow) : Option String :=
  (FieldCells.ofRow (aliases.getD c.config.aliases) .aardvark row).cell? "id"

/-- What an import of a table of resources makes of the cells of one column. -/
structure StoresTitles (c changed : Catalog) (aliases : Option (Dict String)) (db : Database)
    (rows : List TableRow) (column : String) : Prop where
  imported : c.importTabular rows aliases =
    .ok (changed, ⟨.resources, (c.afterRows aliases db rows).2⟩)
  /-- A row that is written is stored with its cell as title, if the column stands for the field of
  titles itself, and it stays so unless a later row has the same id. -/
  titles : ∀ before row later v, rows = before ++ row :: later → row.get? column = some v →
    Text.trim v ≠ "" →
    (c.afterRows aliases db (before ++ [row])).2 = (c.afterRows aliases db before).2 + 1 →
    ∃ r : Resource, c.rowId? aliases row = some r.id ∧
      (c.afterRows aliases db (before ++ [row])).1.hydrate [r.id] = .ok [r] ∧
      r.title? = (if c.fieldOf aliases column = titleField then some (Text.trim v) else none) ∧
      ((∀ other ∈ later, c.rowId? aliases other ≠ some r.id) → changed.get r.id = .ok r)

variable {c : Catalog} {L : Ledger} {aliases : Option (Dict String)} {rows : List TableRow}
  {column : String}

theorem importTabular_afterRows (hc : c.database = some L.database)
    (hkind : TableKind.ofRows (aliases.getD c.config.aliases) .aardvark rows = .resources)
    {N : Ledger} {n : Nat} (hrows : c.afterRows aliases L.database rows = (N.database, n)) :
    c.importTabular rows aliases = .ok (c.holding N, ⟨.resources, n⟩) := by
  refine write_database hc (.ok (_, _)) ?_
  rw [afterRows, Database.afterRows, cellsOf] at hrows
  rw [schema, Database.importRows, hkind]
  simp only [hrows]
  rfl

theorem storesTitles_database (hc : c.database = some L.database) (hL : L.Sound)
    (hkind : TableKind.ofRows (aliases.getD c.config.aliases) .aardvark rows = .resources)
    (honly : ∀ row ∈ rows, ∀ other ∈ row.keys,
      isTitleLike (c.fieldOf aliases other) = true → other = column) :
    ∃ changed, c.StoresTitles changed aliases L.database rows column := by
  obtain ⟨N, n, hN, hrows, -⟩ := hL.exists_rows c.config (c.cellsOf rows aliases) 0
  have hafter : c.afterRows aliases L.database rows = (N.database, 0 + n) := hrows
  refine ⟨c.holding N, ?_, fun before row later v hsplit hcell hblank hwritten => ?_⟩
  · rw [hafter]
    exact importTabular_afterRows hc hkind hafter
  have hfirst : c.cellsOf (before ++ [row]) aliases = c.cellsOf before aliases ++
      [FieldCells.ofRow (aliases.getD c.config.aliases) .aardvark row] := List.map_append
  have hall : c.cellsOf rows aliases = c.cellsOf before aliases ++
      FieldCells.ofRow (aliases.getD c.config.aliases) .aardvark row :: c.cellsOf later aliases :=
    hsplit ▸ List.map_append
  have hmem : row ∈ rows := by
    rw [hsplit]
    exact List.mem_append_right _ List.mem_cons_self
  rw [afterRows, afterRows, hfirst] at hwritten
  obtain ⟨P, Q, r, hP, hQ, hwrote, hlast, hid, hscalars, hr, hkept⟩ :=
    hL.exists_written c.config _ _ (c.cellsOf later aliases) hwritten
  refine ⟨r, hid, ?_, ?_, fun hlater => ?_⟩
  · have hone : [r.id].eraseDups = [r.id] := rfl
    rw [afterRows, hfirst, hwrote, Ledger.hydrate_database hP, hone]
    simp [hr]
  · have htitle : r.title? = _ := congrArg (Dict.get? · titleField) hscalars
    exact htitle.trans (FieldCells.title?_described (honly row hmem) hcell hblank r.id)
  · have hdatabase : N.database = Q.database := by
      rw [← hlast, ← hall]
      exact (congrArg Prod.fst hafter).symm
    have hholding : (c.holding N).database = some Q.database := congrArg some hdatabase
    rw [get_database hholding hQ, hkept (List.forall_mem_map.mpr hlater)]

end Catalog

/-- Of a table of resources in which one column at most stands for a title, the cells in that
column become titles if it stands for the field of titles; if it stands for another spelling of
a title, its rows are stored without one. -/
theorem Session.Reachable.importTabular_titles {s : Session} (h : s.Reachable)
    (rows : List TableRow) (aliases : Option (Dict String))
    (hkind : TableKind.ofRows (aliases.getD s.catalog.config.aliases) .aardvark rows = .resources)
    {column : String} (honly : ∀ row ∈ rows, ∀ other ∈ row.keys,
      isTitleLike (s.catalog.fieldOf aliases other) = true → other = column) :
    ∃ db changed, s.catalog.database = some db ∧
      s.catalog.StoresTitles changed aliases db rows column := by
  obtain ⟨L, hL, hc⟩ := h.ledger
  obtain ⟨changed, hstores⟩ := Catalog.storesTitles_database hc hL hkind honly
  exact ⟨L.database, changed, hc, hstores⟩

/-! Titles under names that are no field -/

namespace Catalog

/-- A name that is told to be a title's, but has no alias. -/
def titledRow : TableRow :=
  .ofList [("ID", "a"), ("Title", " T ")]

def properAlias : Dict String :=
  .ofList [("Title", titleField)]

def capitalAlias : Dict String :=
  .ofList [("Title", "DCT_TITLE_S")]

end Catalog

theorem Session.importTabular_titles_proper :
    let s := afterUpsert (.ofId "a") []
    s.Reachable ∧
      TableKind.ofRows Catalog.properAlias .aardvark [Catalog.titledRow] = .resources ∧
      (∀ row ∈ [Catalog.titledRow], ∀ other ∈ row.keys,
        isTitleLike (s.catalog.fieldOf (some Catalog.properAlias) other) = true →
          other = "Title") ∧
      ∃ db changed, s.catalog.database = some db ∧
        s.catalog.StoresTitles changed (some Catalog.properAlias) db [Catalog.titledRow]
          "Title" := by
  intro s
  have h : s.Reachable := reachable_afterUpsert (by decide) []
  have hkind :
      TableKind.ofRows Catalog.properAlias .aardvark [Catalog.titledRow] = .resources := by
    decide +kernel
  have honly : ∀ row ∈ [Catalog.titledRow], ∀ other ∈ row.keys,
      isTitleLike (s.catalog.fieldOf (some Catalog.properAlias) other) = true →
        other = "Title" := by
    decide +kernel
  exact ⟨h, hkind, honly, h.importTabular_titles [Catalog.titledRow] (some Catalog.properAlias)
    hkind honly⟩

/-- A column that makes a table one of resources by its name, or by an alias in capitals, gives
values in the place of a title. -/
theorem Catalog.importTabular_losesTitle :
    isTitleLike (fieldOfColumn .empty .aardvark "Title") = true ∧
      isTitleLike (fieldOfColumn capitalAlias .aardvark "Title") = true ∧
      isTitleLike (fieldOfColumn .empty .aardvark "ID") = false ∧
      isTitleLike (fieldOfColumn capitalAlias .aardvark "ID") = false ∧
      (∃ c, (fresh default none).importTabular [titledRow] (some .empty) =
        .ok (c, ⟨.resources, 1⟩) ∧
          c.get "a" = .ok ((Resource.ofId "a").setValues "Title" ["T"])) ∧
      ∃ c, (fresh default none).importTabular [titledRow] (some capitalAlias) =
        .ok (c, ⟨.resources, 1⟩) ∧
          c.get "a" = .ok ((Resource.ofId "a").setValues "DCT_TITLE_S" ["T"]) := by
  refine ⟨by decide +kernel, by decide +kernel, by decide +kernel, by decide +kernel,
    importTabular_fresh ?_ ?_, importTabular_fresh ?_ ?_⟩ <;> decide +kernel

end Gazetteer
