import Mathlib
import Gazetteer.Proofs.Catalog.Flush
import Gazetteer.Proofs.Catalog.Holdings
/-!
An import of many records is the sequence of their single writes, of which those that fail change
nothing.
-/

namespace Gazetteer

open Layout

/-! Ids of records -/

namespace Record

variable {schema : Schema} {config : Config} {r : Resource} {ds : List Distribution}

private theorem id_setField (schema : Schema) (r : Resource) (name : String) (value : Json) :
    (setField schema r name value).id = r.id := by
  rw [setField]
  split
  · rfl
  · split <;> split <;> rfl

private theorem id_readFields {fields : List (String × Json)} {found : Resource}
    {given : List Distribution}
    (h : readFields schema config r ds fields = .ok (found, given)) : found.id = r.id := by
  induction fields generalizing r ds with
  | nil =>
      cases h
      rfl
  | cons field rest ih =>
      rw [readFields] at h
      split at h
      · exact ih h
      · split at h
        · split at h
          · cases h
          · exact ih h
        · exact (ih h).trans (id_setField schema r field.1 field.2)

theorem id?_of_read {record : Json} (h : read schema config record = .ok (r, ds)) :
    id? record = some r.id := by
  rw [read.eq_def] at h
  split at h
  · split at h
    · cases h
    next id hid => rw [hid, id_readFields h]
                   rfl
  · cases h

end Record

/-! What is stored for an id -/

/-- The rows of an id in each of the tables that a write of a resource fills. -/
def Database.storedFor (db : Database) (id : String) : List (List Row) :=
  [(resources, "id"), (attributes, "id"), (distributions, "resource_id"), (searchTexts, "id")].map
    fun (table, column) => (db.rows table).filter fun row => row.cell column == .text id

theorem Placement.filter_place_self (id : String) (ds : List Distribution)
    (placements : List Placement) (position : Int) :
    (place id placements position ds).filter (fun p => p.id == id) =
      place id (placements.filter fun p => p.id == id) position ds := by
  induction ds generalizing placements position with
  | nil => rfl
  | cons d rest ih =>
      have hany : (placements.filter fun p => p.id == id).any (clashes id d) =
          placements.any (clashes id d) := by
        rw [List.any_filter]
        refine congrArg _ (funext fun p => ?_)
        rw [clashes, BEq.comm (a := id)]
        cases p.id == id <;> rfl
      rw [place, ih, place, hany]
      split
      · rfl
      · rw [List.filter_append]
        simp

namespace Ledger

variable {L M : Ledger} {id : String}

theorem filter_rows {α : Type} {row : α → Row} {column : String} {idOf : α → String}
    (h : ∀ a, (row a).cell column = .text (idOf a)) (items : List α) (id : String) :
    (items.map row).filter (fun r => r.cell column == .text id) =
      (items.filter fun a => idOf a == id).map row := by
  rw [List.filter_map]
  refine congrArg _ (List.filter_congr fun a _ => ?_)
  rw [Function.comp_apply, h, Bool.eq_iff_iff, beq_iff_eq, beq_iff_eq, Cell.text.injEq]

theorem storedFor_congr
    (hresources : (L.resources.filter fun r => r.id == id) =
      M.resources.filter fun r => r.id == id)
    (hplacements : (L.placements.filter fun p => p.id == id) =
      M.placements.filter fun p => p.id == id) :
    L.database.storedFor id = M.database.storedFor id := by
  have hattributes (N : Ledger) : (N.resources.flatMap Resource.attributes).filter
      (fun entry => entry.1 == id) =
        (N.resources.filter fun r => r.id == id).flatMap Resource.attributes :=
    filter_flatMap_key (fun _ _ hentry => Resource.id_of_mem_attributes hentry) (· == id) _
  simp only [Database.storedFor, List.map_cons, List.map_nil, rows_resources, rows_attributes,
    rows_distributions, rows_searchTexts, filter_rows (fun _ => Resource.scalarRow_id),
    filter_rows attributeRow_id, filter_rows Placement.row_id,
    filter_rows (fun _ => Resource.searchRow_id), hattributes, hresources, hplacements]

theorem placements_put (L : Ledger) (r : Resource) (ds : List Distribution) (id : String) :
    (L.put r ds).placements.filter (fun p => p.id == id) =
      if id = r.id then Placement.place r.id [] 0 ds else L.placements.filter fun p => p.id == id := by
  have hothers : (L.cleared r.id .full).placements.filter (fun p => p.id == id) =
      if id == r.id then [] else L.placements.filter fun p => p.id == id :=
    filter_without Placement.id L.placements r.id id
  by_cases hid : id = r.id
  · subst hid
    refine (Placement.filter_place_self r.id ds _ 0).trans ?_
    rw [hothers, if_pos BEq.rfl, if_pos rfl]
  · refine (Placement.filter_place_of_ne hid ds _ 0).trans ?_
    rw [hothers, if_neg (by simpa using hid), if_neg hid]

end Ledger

/-! Records written one after the other -/

namespace Catalog

variable {c d : Catalog} {db : Database} {record : Json} {records : List Json} {id : String}

/-- The catalog after single writes of records, of which those that fail change nothing. -/
def upsertAll (c : Catalog) (records : List Json) : Catalog :=
  records.foldl (fun c record => stateAfter c (c.upsertRecord record)) c

def upserts (c : Catalog) : List Json → Nat
  | [] => 0
  | record :: rest =>
      (if (c.upsertRecord record).isOk then 1 else 0) +
        (stateAfter c (c.upsertRecord record)).upserts rest

def storedFor (c : Catalog) (id : String) : Option (List (List Row)) :=
  c.database.map fun db => db.storedFor id

/-- A single write either fails or puts another database in the place of that of the catalog, and
then the record has an id. -/
theorem Holds.upsertRecord_cases (h : c.Holds db) (record : Json) :
    (∃ e, db.upsertRecord schema c.config record = .error e ∧ c.upsertRecord record = .error e) ∨
      ∃ changed id, Record.id? record = some id ∧
        db.upsertRecord schema c.config record = .ok changed ∧
        c.upsertRecord record = .ok (c.flushed changed, ()) ∧
        (c.flushed changed).Holds changed := by
  have heq := h.upsertRecord_eq record
  cases hupsert : db.upsertRecord schema c.config record with
  | error e =>
      rw [hupsert] at heq
      exact Or.inl ⟨e, rfl, heq⟩
  | ok changed =>
      rw [hupsert] at heq
      have hchanged : (c.flushed changed).Holds changed := h.flushed (.upsertRecord hupsert) c
      rw [Database.upsertRecord] at hupsert
      split at hupsert
      · cases hupsert
      next r ds hread => exact Or.inr ⟨changed, r.id, Record.id?_of_read hread, rfl, heq, hchanged⟩

/-- What an import adds to a report: the single writes that succeed, the records without an id, and
the others. -/
structure Reports (c : Catalog) (records : List Json) (before after : ImportReport) : Prop where
  processed : after.processed = before.processed + c.upserts records
  skipped : after.skipped =
    before.skipped + records.countP fun record => (Record.id? record).isNone
  total : after.processed + after.skipped + after.failed =
    before.processed + before.skipped + before.failed + records.length

namespace Reports

variable {before next after : ImportReport}

theorem single
    (hprocessed : next.processed = before.processed + if (c.upsertRecord record).isOk then 1 else 0)
    (hskipped : next.skipped = before.skipped + if (Record.id? record).isNone then 1 else 0)
    (htotal : next.processed + next.skipped + next.failed =
      before.processed + before.skipped + before.failed + 1) : c.Reports [record] before next :=
  ⟨hprocessed, by rw [hskipped, List.countP_singleton], htotal⟩

theorem cons (h : c.Reports [record] before next)
    (hrest : (stateAfter c (c.upsertRecord record)).Reports records next after) :
    c.Reports (record :: records) before after := by
  obtain ⟨hprocessed, hskipped, htotal⟩ := h
  obtain ⟨hprocessed', hskipped', htotal'⟩ := hrest
  have hupserts : c.upserts (record :: records) = c.upserts [record] +
      (stateAfter c (c.upsertRecord record)).upserts records := rfl
  refine ⟨?_, ?_, ?_⟩
  · rw [hupserts, hprocessed', hprocessed, Nat.add_assoc]
  · rw [List.countP_cons, hskipped', hskipped, List.countP_singleton]
    omega
  · rw [List.length_cons, htotal', htotal, List.length_singleton]
    omega

end Reports

theorem Holds.importRecord (h : c.Holds db) (record : Json) (before : ImportReport) :
    ∃ changed next, Database.importRecord schema c.config (db, before) record = (changed, next) ∧
      c.Reports [record] before next ∧ (stateAfter c (c.upsertRecord record)).Holds changed ∧
      (stateAfter c (c.upsertRecord record)).config = c.config := by
  rcases h.upsertRecord_cases record with
    ⟨e, himport, hwrite⟩ | ⟨changed, id, hid, himport, hwrite, hchanged⟩
  · have hsame : stateAfter c (c.upsertRecord record) = c := by
      rw [hwrite, stateAfter]
    rw [Database.importRecord, himport, hsame]
    cases hid : Record.id? record with
    | none =>
        refine ⟨db, _, rfl, .single ?_ ?_ ?_, h, rfl⟩
        · rw [hwrite]
          rfl
        · rw [hid]
          rfl
        · dsimp only
          omega
    | some id =>
        refine ⟨db, _, rfl, .single ?_ ?_ ?_, h, rfl⟩
        · rw [hwrite]
          rfl
        · rw [hid]
          rfl
        · rfl
  · have hafter : stateAfter c (c.upsertRecord record) = c.flushed changed := by
      rw [hwrite, stateAfter]
    rw [Database.importRecord, himport, hid, hafter]
    refine ⟨changed, _, rfl, .single ?_ ?_ ?_, hchanged, rfl⟩
    · rw [hwrite]
      rfl
    · rw [hid]
      rfl
    · dsimp only
      omega

/-- An import of records stays in step with their single writes. -/
theorem Holds.importRecords (h : c.Holds db) (records : List Json) (before : ImportReport) :
    ∃ changed after, records.foldl (Database.importRecord schema c.config) (db, before) =
        (changed, after) ∧ c.Reports records before after ∧
      (c.upsertAll records).Holds changed ∧ (c.upsertAll records).config = c.config := by
  induction records generalizing c db before with
  | nil => exact ⟨db, before, rfl, ⟨rfl, rfl, rfl⟩, h, rfl⟩
  | cons record rest ih =>
      obtain ⟨changed, next, hfirst, hreports, hchanged, hconfig⟩ := h.importRecord record before
      obtain ⟨final, after, hrest, hreports', hfinal, hconfig'⟩ := ih hchanged next
      rw [hconfig] at hrest hconfig'
      refine ⟨final, after, ?_, hreports.cons hreports', hfinal, hconfig'⟩
      rw [List.foldl_cons, hfirst, hrest]

/-- What a catalog stores for an id after it was another one: what a record gives in a catalog
without resources, or without a record what was stored before. -/
inductive StoredBy (c d : Catalog) (id : String) : Option Json → Prop
  | before (h : d.storedFor id = c.storedFor id) : StoredBy c d id none
  | record {record : Json} {e : Catalog}
      (hfresh : (fresh c.config none).upsertRecord record = .ok (e, ()))
      (h : d.storedFor id = e.storedFor id) : StoredBy c d id (some record)

theorem StoredBy.trans {e : Catalog} {first second : Option Json} (h : c.StoredBy d id first)
    (hconfig : d.config = c.config) (h' : d.StoredBy e id second) :
    c.StoredBy e id (second.or first) := by
  cases h' with
  | before hsame =>
      rw [Option.none_or]
      cases h with
      | before h => exact .before (hsame.trans h)
      | record hfresh h => exact .record hfresh (hsame.trans h)
  | record hfresh h =>
      rw [hconfig] at hfresh
      exact .record hfresh h

end Catalog

end Gazetteer
