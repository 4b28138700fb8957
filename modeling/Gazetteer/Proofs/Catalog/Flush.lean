import Mathlib
import Gazetteer.Proofs.Catalog.Append
import Gazetteer.Proofs.Catalog.Restart
import Gazetteer.Proofs.Migration.Backfill
/-!
Writes and the sink.  No write takes a table away, so that the resources of a catalog can always be
counted: its sink takes a snapshot after every write, and no write fails because of it.
-/

namespace Gazetteer

open Layout

/-! Tables stay -/

namespace Database

/-- The tables of one database are there in the other, and no more. -/
def KeepsTables (db changed : Database) : Prop :=
  ∀ name, (changed.table? name).isSome = (db.table? name).isSome

namespace KeepsTables

variable {db changed : Database} {schema : Schema} {r : Resource} {ds : List Distribution}
  {id : String}

theorem refl (db : Database) : db.KeepsTables db :=
  fun _ => rfl

theorem trans {first second third : Database} (h : first.KeepsTables second)
    (h' : second.KeepsTables third) : first.KeepsTables third :=
  fun name => (h' name).trans (h name)

theorem of_map {change : Except Error Database}
    (h : ∀ changed, change = .ok changed → db.KeepsTables changed) :
    ∀ r, change.map (·, ()) = .ok r → db.KeepsTables r.1 := by
  intro r hr
  obtain ⟨changed, hchanged, rfl⟩ := map_eq_ok.mp hr
  exact h changed hchanged

theorem put (db : Database) (t : Table) : db.KeepsTables (db.put t) := by
  intro name
  rw [table?_put]
  split
  · exact Option.isSome_map
  · rfl

theorem modify {α : Type} {name : String} {statement : Table → Except Fault (Table × α)}
    {result : α} (h : db.modify name statement = .ok (changed, result)) :
    db.KeepsTables changed := by
  obtain ⟨t, u, -, -, rfl⟩ := modify_eq_ok h
  exact put db u

theorem clear {step : Step} {table column : String}
    (h : db.clear id step table column = .ok changed) : db.KeepsTables changed := by
  obtain ⟨⟨_, count⟩, hdelete, rfl⟩ := map_eq_ok.mp (Step.result_eq_ok h)
  exact modify hdelete

private theorem insertStep {step : Step} {table : String} {conflict : Conflict}
    {values : List (String × Cell)}
    (h : step.result id ((db.insert table conflict values).map Prod.fst) = .ok changed) :
    db.KeepsTables changed := by
  obtain ⟨⟨_, inserted⟩, hinsert, rfl⟩ := map_eq_ok.mp (Step.result_eq_ok h)
  exact modify hinsert

private theorem insertScalars (h : db.insertScalars r = .ok changed) : db.KeepsTables changed := by
  obtain ⟨⟨_, inserted⟩, hdone, rfl⟩ := map_eq_ok.mp (Step.result_eq_ok h)
  obtain ⟨cells, -, hinsert⟩ := bind_eq_ok.mp hdone
  exact modify hinsert

private theorem insertPairs {pairs : List (String × String)}
    (h : db.insertPairs id pairs = .ok changed) : db.KeepsTables changed := by
  induction pairs generalizing db with
  | nil =>
      cases h
      exact refl _
  | cons pair rest ih =>
      rw [Database.insertPairs] at h
      split at h
      · cases h
      next hinsert => exact (modify hinsert).trans (ih h)

private theorem insertAttributes (h : db.insertAttributes r = .ok changed) :
    db.KeepsTables changed := by
  rw [Database.insertAttributes] at h
  split at h
  · cases h
  · exact insertPairs (Step.result_eq_ok h)

private theorem insertDistributions {position : Int} {count n : Nat}
    (h : db.insertDistributions id position count ds = .ok (changed, n)) :
    db.KeepsTables changed := by
  induction ds generalizing db position count with
  | nil =>
      cases h
      exact refl _
  | cons d rest ih =>
      rw [Database.insertDistributions] at h
      split at h
      · cases h
      next hinsert => exact (modify hinsert).trans (ih h)

theorem append {n : Nat} (h : db.append id ds = .ok (changed, n)) : db.KeepsTables changed := by
  rw [Database.append] at h
  split at h
  · cases h
    exact refl db
  · split at h
    · cases h
    · split at h
      · cases h
      · exact insertDistributions (Step.result_eq_ok h)

private theorem rewrite (h : ((do
    let db ← db.clear r.id .deleteSearchContent searchTexts "id"
    let db ← db.insertScalars r
    let db ← db.insertAttributes r
    let (db, _) ← db.append r.id ds
    db.insertSearchText schema r) : Except Error Database) = .ok changed) :
    db.KeepsTables changed := by
  obtain ⟨a, ha, h⟩ := bind_eq_ok.mp h
  obtain ⟨b, hb, h⟩ := bind_eq_ok.mp h
  obtain ⟨c, hc, h⟩ := bind_eq_ok.mp h
  obtain ⟨⟨d, n⟩, hd, h⟩ := bind_eq_ok.mp h
  have hscalars : db.KeepsTables b := (clear ha).trans (insertScalars hb)
  have hvalues : b.KeepsTables d := (insertAttributes hc).trans (append hd)
  exact (hscalars.trans hvalues).trans (insertStep h)

theorem replace {extent : Replacement} (h : db.replace schema r ds extent = .ok changed) :
    db.KeepsTables changed := by
  obtain ⟨a, ha, h⟩ := bind_eq_ok.mp h
  obtain ⟨b, hb, h⟩ := bind_eq_ok.mp h
  have hcleared : db.KeepsTables b := (clear ha).trans (clear hb)
  cases extent with
  | full =>
      obtain ⟨c, hc, h⟩ := bind_eq_ok.mp h
      exact (hcleared.trans (clear hc)).trans (rewrite h)
  | metadata => exact hcleared.trans (rewrite h)

theorem upsert (h : db.upsert schema r ds = .ok changed) : db.KeepsTables changed := by
  rw [Database.upsert] at h
  split at h
  · cases h
  · exact replace h

theorem upsertRecord {config : Config} {record : Json}
    (h : db.upsertRecord schema config record = .ok changed) : db.KeepsTables changed := by
  rw [Database.upsertRecord] at h
  split at h
  · cases h
  · exact upsert h

theorem refresh (h : db.refresh schema r ds = .ok changed) : db.KeepsTables changed := by
  rw [Database.refresh] at h
  split at h
  · cases h
  · exact replace h

theorem remove {existed : Bool} (h : db.remove id = .ok (changed, existed)) :
    db.KeepsTables changed := by
  rw [Database.remove] at h
  split at h
  · cases h
  · obtain ⟨⟨a, n⟩, ha, h⟩ := bind_eq_ok.mp h
    obtain ⟨b, hb, h⟩ := bind_eq_ok.mp h
    obtain ⟨c, hc, h⟩ := bind_eq_ok.mp h
    obtain ⟨d, hd, h⟩ := bind_eq_ok.mp h
    obtain ⟨e, he, h⟩ := bind_eq_ok.mp h
    obtain ⟨f, hf, h⟩ := bind_eq_ok.mp h
    cases h
    have hfirst : db.KeepsTables c :=
      ((modify (Step.result_eq_ok ha)).trans (clear hb)).trans (clear hc)
    exact (hfirst.trans (clear hd)).trans ((clear he).trans (clear hf))

theorem cache {table column url : String} (h : db.cache table column id url = .ok changed) :
    db.KeepsTables changed := by
  obtain ⟨⟨_, result⟩, hmodify, rfl⟩ := map_eq_ok.mp (engineResult_eq_ok h)
  exact modify hmodify

/-- The single writes of an import keep the tables that there were before it. -/
theorem kept (config : Config) (db : Database) : Kept config db.KeepsTables where
  upsert hdb _ hupsert := hdb.trans (upsert hupsert)
  refresh hdb _ hrefresh := hdb.trans (refresh hrefresh)
  append hdb _ happend := hdb.trans (append happend)

end KeepsTables

private theorem KeepsTables.fillEnvelopes {db filled : Database} {count n : Nat}
    {entries : List (String × Envelope)}
    (h : db.fillEnvelopes count entries = .ok (filled, n)) : db.KeepsTables filled := by
  induction entries generalizing db count with
  | nil =>
      cases h
      exact refl _
  | cons entry rest ih =>
      rw [Database.fillEnvelopes] at h
      split at h
      · cases h
      next hmodify => exact (modify hmodify).trans (ih h)

private theorem KeepsTables.backfill {db filled : Database} {n : Nat}
    (h : db.backfill = .ok (filled, n)) : db.KeepsTables filled := by
  obtain ⟨rows, -, h⟩ := bind_eq_ok.mp h
  split at h
  · cases h
    exact refl _
  · obtain ⟨-, -, h⟩ := bind_eq_ok.mp h
    obtain ⟨entries, -, h⟩ := bind_eq_ok.mp h
    exact fillEnvelopes h

theorem isSome_resources {stored db : Database} (h : stored.prepare .aardvark = .ok db) :
    (db.table? resources).isSome = true := by
  obtain ⟨later, hcompletes, hready⟩ := prepare_eq_ok h
  have hlater : (later.table? resources).isSome = true :=
    hcompletes.tables (resources, resourceColumns .aardvark) List.mem_cons_self
  rcases hready with ⟨n, hbackfill⟩ | ⟨rfl, -⟩
  · exact (KeepsTables.backfill hbackfill resources).trans hlater
  · exact hlater

def imaged (compress : Bool) (db : Database) : Snapshot :=
  ⟨.image db, (db.rows resources).length, compress, true⟩

theorem snapshot_eq {db : Database} (h : (db.table? resources).isSome = true) (compress : Bool) :
    db.snapshot compress = .ok (db.imaged compress) := by
  obtain ⟨t, ht⟩ := Option.isSome_iff_exists.mp h
  simp only [snapshot, count, table, imaged, rows, ht, Except.map]

end Database

namespace Catalog

variable {α β : Type} {c d : Catalog} {db : Database} {q : Call}

def flushed (c : Catalog) (db : Database) : Catalog :=
  { c with
    database := some db
    sink := c.sink.map fun k => ⟨k.flushes + 1, some (db.imaged c.config.compressSnapshots)⟩ }

theorem flush_eq (h : (db.table? resources).isSome = true) (c : Catalog) :
    c.flush db = .ok (c.flushed db) := by
  obtain ⟨config, database, sink⟩ := c
  cases sink with
  | none => rfl
  | some k =>
      rw [flush, Database.snapshot_eq h]
      rfl

/-- An available catalog, whose resources can be counted. -/
structure Holds (c : Catalog) (db : Database) : Prop where
  database : c.database = some db
  resources : (db.table? resources).isSome = true

namespace Holds

theorem flushed (h : c.Holds db) {changed : Database} (hchanged : db.KeepsTables changed)
    (c : Catalog) : (c.flushed changed).Holds changed :=
  ⟨rfl, (hchanged Layout.resources).trans h.resources⟩

theorem write_eq (h : c.Holds db) {idle : α} {operation : Database → Except Error (Database × α)}
    (hoperation : ∀ r, operation db = .ok r → db.KeepsTables r.1) :
    c.write idle operation = (operation db).map fun r => (c.flushed r.1, r.2) := by
  simp only [write, h.database]
  cases hresult : operation db with
  | error e => rfl
  | ok r =>
      have hflush := flush_eq (h.flushed (hoperation r hresult) c).resources c
      simp only [hflush]
      rfl

theorem upsert_eq (h : c.Holds db) (r : Resource) (ds : List Distribution) :
    c.upsert r ds = (db.upsert schema r ds).map fun changed => (c.flushed changed, ()) := by
  have hwrite : c.write () (fun db => (db.upsert schema r ds).map (·, ())) =
      (db.upsert schema r ds).map fun changed => (c.flushed changed, ()) := by
    rw [h.write_eq]
    · cases db.upsert schema r ds <;> rfl
    · exact .of_map fun _ hchanged => .upsert hchanged
  rw [upsert, hwrite, Database.upsert]
  cases schema.check r <;> rfl

theorem upsertRecord_eq (h : c.Holds db) (record : Json) :
    c.upsertRecord record =
      (db.upsertRecord schema c.config record).map fun changed => (c.flushed changed, ()) := by
  rw [upsertRecord, Database.upsertRecord]
  cases Record.read schema c.config record with
  | error e => rfl
  | ok written => exact h.upsert_eq written.1 written.2

end Holds

end Catalog

/-! Calls -/

def Call.isWrite : Call → Bool
  | .edit _ => true
  | .importBulk _ => true
  | .importTabular _ _ => true
  | _ => false

namespace Catalog

variable {α β : Type} {c d : Catalog} {db : Database} {q : Call}

def withSink (c : Catalog) (sink : Option Sink) : Catalog :=
  { c with sink }

/-- An operation that makes a change of the database and hands the result to the sink, whichever
sink there is. -/
structure Flushes (c : Catalog) (db : Database)
    (operation : Catalog → Except Error (Catalog × α)) (change : Except Error (Database × α)) :
    Prop where
  tables : ∀ r, change = .ok r → db.KeepsTables r.1
  flushed : ∀ sink, operation (c.withSink sink) =
    change.map fun r => ((c.withSink sink).flushed r.1, r.2)

theorem Flushes.of_map {operation : Catalog → Except Error (Catalog × Unit)}
    {change : Except Error Database} (htables : ∀ changed, change = .ok changed →
      db.KeepsTables changed)
    (hflushed : ∀ sink, operation (c.withSink sink) =
      change.map fun changed => ((c.withSink sink).flushed changed, ())) :
    c.Flushes db operation (change.map (·, ())) where
  tables := .of_map htables
  flushed sink := by
    rw [hflushed]
    cases change <;> rfl

theorem Flushes.map {operation : Catalog → Except Error (Catalog × α)}
    {change : Except Error (Database × α)} (h : c.Flushes db operation change) (f : α → β) :
    c.Flushes db (fun c => (operation c).map (Prod.map id f)) (change.map (Prod.map id f)) where
  tables r hr := by
    obtain ⟨written, hwritten, rfl⟩ := map_eq_ok.mp hr
    exact h.tables written hwritten
  flushed sink := by
    rw [h.flushed]
    cases change <;> rfl

namespace Holds

theorem withSink (h : c.Holds db) (sink : Option Sink) : (c.withSink sink).Holds db :=
  ⟨h.database, h.resources⟩

private theorem flushes_write (h : c.Holds db) {idle : α}
    {operation : Database → Except Error (Database × α)}
    (hoperation : ∀ r, operation db = .ok r → db.KeepsTables r.1) :
    c.Flushes db (fun c => c.write idle operation) (operation db) where
  tables := hoperation
  flushed sink := (h.withSink sink).write_eq hoperation

private theorem flushes_edit (h : c.Holds db) (e : Edit) :
    ∃ change, c.Flushes db (fun c => c.edit e) change := by
  cases e with
  | upsert r ds =>
      have hupsert : c.Flushes db (fun c => c.upsert r ds) _ :=
        .of_map (fun _ hchanged => .upsert hchanged) fun sink => (h.withSink sink).upsert_eq r ds
      exact ⟨_, hupsert.map fun _ => none⟩
  | upsertRecord record =>
      have hrecord : c.Flushes db (fun c => c.upsertRecord record) _ :=
        .of_map (fun _ hchanged => .upsertRecord hchanged) fun sink =>
          (h.withSink sink).upsertRecord_eq record
      exact ⟨_, hrecord.map fun _ => none⟩
  | delete id =>
      have hdelete : c.Flushes db (fun c => c.delete id) (db.remove id) :=
        h.flushes_write fun r hr => .remove hr
      exact ⟨_, hdelete.map some⟩
  | cacheThumbnail id url =>
      have hcache : c.Flushes db (fun c => c.cacheThumbnail id url)
          ((db.cacheThumbnail id url).map (·, ())) :=
        h.flushes_write (.of_map fun _ hchanged => .cache hchanged)
      exact ⟨_, hcache.map fun _ => none⟩
  | cacheStaticMap id url =>
      have hcache : c.Flushes db (fun c => c.cacheStaticMap id url)
          ((db.cacheStaticMap id url).map (·, ())) :=
        h.flushes_write (.of_map fun _ hchanged => .cache hchanged)
      exact ⟨_, hcache.map fun _ => none⟩

/-- Every write makes one change of the database and hands the result to the sink once. -/
theorem flushes_call (h : c.Holds db) (hq : q.isWrite = true) :
    ∃ change, c.Flushes db (fun c => c.call q) change := by
  cases q with
  | edit e =>
      obtain ⟨change, hedit⟩ := h.flushes_edit e
      exact ⟨_, hedit.map Answer.edited⟩
  | importBulk records =>
      let operation (db : Database) : Except Error (Database × ImportReport) :=
        .ok (db.importRecords schema c.config records)
      have hwrite : c.Flushes db (fun c => c.write ⟨0, 0, 0⟩ operation) (operation db) := by
        refine h.flushes_write fun r hr => ?_
        cases hr
        exact (Database.KeepsTables.kept c.config db).importRecords (.refl db) records
      have himport : c.Flushes db (fun c => c.importBulk records) (operation db) :=
        ⟨hwrite.tables, hwrite.flushed⟩
      exact ⟨_, himport.map Answer.imported⟩
  | importTabular rows aliases =>
      let names := aliases.getD c.config.aliases
      let operation (db : Database) : Except Error (Database × TableSummary) :=
        db.importRows schema c.config names rows
      have hwrite : c.Flushes db
          (fun c => c.write ⟨.ofRows names schema rows, 0⟩ operation) (operation db) :=
        h.flushes_write fun r hr =>
          (Database.KeepsTables.kept c.config db).importRows (.refl db) hr
      have himport : c.Flushes db (fun c => c.importTabular rows aliases) (operation db) :=
        ⟨hwrite.tables, hwrite.flushed⟩
      exact ⟨_, himport.map Answer.tabulated⟩
  | _ => cases hq

end Holds

/-- A read leaves the catalog as it is, and its answer does not depend on the sink. -/
theorem call_read (c : Catalog) (hq : q.isWrite = false) (sink : Option Sink) :
    (c.withSink sink).call q = ((c.call q).map Prod.snd).map (c.withSink sink, ·) := by
  have hread {α : Type} (x : Except Error α) (f : α → Answer) :
      x.map (c.withSink sink, f ·) =
        ((x.map (c, f ·)).map Prod.snd).map (c.withSink sink, ·) := by
    cases x <;> rfl
  cases q with
  | get id => exact hread (c.get id) _
  | getMany ids => exact hread (c.getMany ids) _
  | search request => exact hread (c.search request) _
  | facetedSearch request => exact hread (c.facetedSearch request) _
  | distinctValues field limit => exact hread (c.distinctValues field limit) _
  | count => exact hread c.count _
  | exportRecords => exact hread c.exportRecords _
  | staticMap id => exact hread (c.staticMap? id) _
  | _ => cases hq

/-- Catalogs with one configuration and one database give the same answers to reads. -/
theorem answer_congr (hconfig : c.config = d.config) (hdatabase : c.database = d.database)
    (hq : q.isWrite = false) : (c.call q).map Prod.snd = (d.call q).map Prod.snd := by
  have hsame : d = c.withSink d.sink := by
    rw [withSink, hconfig, hdatabase]
  rw [hsame, call_read c hq]
  cases c.call q <;> rfl

/-! Runs of calls -/

/-- The available catalogs: those that were opened with some stored database, brought to the present
layout, and those that calls lead to from there. -/
inductive Opened : Catalog → Prop
  | opened (config : Config) (sink : Option Sink) {stored db : Database}
      (h : stored.prepare .aardvark = .ok db) : Opened ⟨config, some db, sink⟩
  | called {c d : Catalog} {q : Call} {a : Answer} (hc : Opened c) (h : c.call q = .ok (d, a)) :
      Opened d

/-- How many writes among calls succeed. -/
def writes (c : Catalog) : List Call → Nat
  | [] => 0
  | q :: rest =>
      (if q.isWrite && (c.call q).isOk then 1 else 0) + (stateAfter c (c.call q)).writes rest

def answers (c : Catalog) : List Call → List (Except Error Answer)
  | [] => []
  | q :: rest => (c.call q).map Prod.snd :: (stateAfter c (c.call q)).answers rest

/-- What a call does to a catalog: a read nothing, and a write either fails or puts another database
in the place of its own and hands that to the sink. -/
inductive Outcome (c : Catalog) (db : Database) : Bool → Catalog → Prop
  | same : Outcome c db false c
  | flushed {changed : Database} (h : db.KeepsTables changed) :
      Outcome c db true (c.flushed changed)

namespace Holds

theorem outcome (h : c.Holds db) (q : Call) :
    Outcome c db (q.isWrite && (c.call q).isOk) (stateAfter c (c.call q)) := by
  cases hq : q.isWrite with
  | false =>
      have hread : c.call q = ((c.call q).map Prod.snd).map (c, ·) := call_read c hq c.sink
      rw [hread]
      cases c.call q <;> exact .same
  | true =>
      obtain ⟨change, htables, hflushed⟩ := h.flushes_call hq
      have hcall : c.call q = change.map fun r => (c.flushed r.1, r.2) := hflushed c.sink
      rw [hcall]
      cases hchange : change with
      | error e => exact .same
      | ok r => exact .flushed (htables r hchange)

theorem of_outcome (h : c.Holds db) {flushes : Bool} (ho : Outcome c db flushes d) :
    ∃ changed, d.Holds changed := by
  cases ho with
  | same => exact ⟨db, h⟩
  | flushed hchanged => exact ⟨_, h.flushed hchanged c⟩

theorem after (h : c.Holds db) (q : Call) :
    ∃ changed, (stateAfter c (c.call q)).Holds changed :=
  h.of_outcome (h.outcome q)

end Holds

theorem Opened.holds (h : c.Opened) : ∃ db, c.Holds db := by
  induction h with
  | opened config sink hprepare => exact ⟨_, rfl, Database.isSome_resources hprepare⟩
  | @called c d q a hc hcall ih =>
      obtain ⟨db, hdb⟩ := ih
      obtain ⟨changed, hchanged⟩ := hdb.after q
      rw [hcall] at hchanged
      exact ⟨changed, hchanged⟩

theorem fresh_eq (config : Config) (sink : Option Sink) :
    fresh config sink = ⟨config, some Ledger.empty.database, sink⟩ := by
  rw [fresh, prepared_eq Ledger.prepare_empty]

end Catalog

end Gazetteer
