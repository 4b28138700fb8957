import Mathlib
import Gazetteer.Proofs.Catalog.Reachable
/-!
Restarts: a catalog restored from a snapshot of its own, or opened again at its file.  No answer
that the catalog gives later tells whether it was restarted.
-/

namespace Gazetteer

inductive Call
  | edit (e : Edit)
  | importBulk (records : List Json)
  | importTabular (rows : List TableRow) (aliases : Option (Dict String))
  | get (id : String)
  | getMany (ids : List String)
  | search (request : Request)
  | facetedSearch (request : Request)
  | distinctValues (field : String) (limit : Option Nat)
  | count
  | exportRecords
  | staticMap (id : String)

inductive Answer
  | edited (existed : Option Bool)
  | imported (report : ImportReport)
  | tabulated (summary : TableSummary)
  | resource (r : Resource)
  | resources (rs : List Resource)
  | response (found : Response)
  | buckets (found : List Bucket)
  | number (n : Nat)
  | records (found : List Json)
  | url (found : Option String)

namespace Catalog

def call (c : Catalog) : Call → Except Error (Catalog × Answer)
  | .edit e => (c.edit e).map (Prod.map id .edited)
  | .importBulk records => (c.importBulk records).map (Prod.map id .imported)
  | .importTabular rows aliases => (c.importTabular rows aliases).map (Prod.map id .tabulated)
  | .get id => (c.get id).map (c, .resource ·)
  | .getMany ids => (c.getMany ids).map (c, .resources ·)
  | .search request => (c.search request).map (c, .response ·)
  | .facetedSearch request => (c.facetedSearch request).map (c, .response ·)
  | .distinctValues field limit => (c.distinctValues field limit).map (c, .buckets ·)
  | .count => c.count.map (c, .number ·)
  | .exportRecords => c.exportRecords.map (c, .records ·)
  | .staticMap id => (c.staticMap? id).map (c, .url ·)

end Catalog

/-- How another catalog takes the place of that of a session. -/
inductive Restart
  | fromSnapshot
  | fromFile

inductive Event
  | call (q : Call)
  | restart (way : Restart) (sink : Option Sink)

namespace Session

def withSink (s : Session) (sink : Option Sink) : Session :=
  { s with catalog := { s.catalog with sink } }

/-- The session after a restart.  A catalog that gives no snapshot stays, and so does one that is
not at home in a file if it should be opened there. -/
def restarted (s : Session) (sink : Option Sink) : Restart → Session
  | .fromSnapshot =>
      match s.catalog.snapshot with
      | .ok found => s.moved (.restoreSnapshot s.catalog.config sink found)
      | .error _ => s
  | .fromFile =>
      match s.atHome, s.place with
      | true, .file _ => (s.withSink sink).reopened
      | _, _ => s

/-- The answers to the calls of a run, failures included.  A call that fails changes nothing. -/
def answers (s : Session) : List Event → List (Except Error Answer)
  | [] => []
  | .call q :: rest =>
      let result := s.write fun c => c.call q
      result.map Prod.snd :: (stateAfter s result).answers rest
  | .restart way sink :: rest => (s.restarted sink way).answers rest

end Session

/-! Catalogs that answer alike -/

namespace Catalog

/-- Catalogs that differ in their sinks alone, with the database of a sound ledger if they have
one. -/
structure Agree (c d : Catalog) : Prop where
  config : c.config = d.config
  database : c.database = d.database
  sound : ∀ db ∈ c.database, db.Sound

/-- Outcomes of one operation on catalogs that agree: failures alike, or answers alike with catalogs
that still agree.  A catalog that was available stays so. -/
inductive Alike {α : Type} (before : Catalog) :
    Except Error (Catalog × α) → Except Error (Catalog × α) → Prop
  | error (e : Error) : Alike before (.error e) (.error e)
  | ok {c d : Catalog} (h : c.Agree d) (hc : before.isAvailable → c.isAvailable) (a : α) :
      Alike before (.ok (c, a)) (.ok (d, a))

variable {α β : Type} {c d : Catalog}

theorem Alike.map {x y : Except Error (Catalog × α)} (h : Alike c x y) (f : α → β) :
    Alike c (x.map (Prod.map id f)) (y.map (Prod.map id f)) := by
  cases h with
  | error e => exact .error e
  | ok h hc a => exact .ok h hc (f a)

namespace Agree

theorem alike_read (h : c.Agree d) {x y : Except Error α} (hread : x = y) (f : α → β) :
    Alike c (x.map (c, f ·)) (y.map (d, f ·)) := by
  subst hread
  cases x with
  | error e => exact .error e
  | ok a => exact .ok h id (f a)

theorem read (h : c.Agree d) (idle : α) (operation : Database → Except Error α) :
    c.read idle operation = d.read idle operation := by
  rw [Catalog.read, Catalog.read, h.database]

/-- Sinks take every snapshot of a sound ledger, so that a write succeeds with one as it does with
another. -/
theorem write (h : c.Agree d) {idle : α} {operation : Database → Except Error (Database × α)}
    (hoperation : ∀ {db changed : Database} {result : α}, db.Sound →
      operation db = .ok (changed, result) → changed.Sound) :
    Alike c (c.write idle operation) (d.write idle operation) := by
  rw [Catalog.write, Catalog.write, ← h.database]
  cases hdatabase : c.database with
  | none => exact .ok h id idle
  | some db =>
      simp only
      cases hresult : operation db with
      | error e => exact .error e
      | ok written =>
          obtain ⟨M, hM, hwritten⟩ := hoperation (h.sound db hdatabase) hresult
          have hholding : (c.holding M).Agree (d.holding M) := by
            refine ⟨h.config, rfl, fun held hheld => ?_⟩
            cases hheld
            exact ⟨M, hM, rfl⟩
          simp only [← hwritten, flush_database]
          exact .ok hholding (fun _ => rfl) written.2

private theorem upsert (h : c.Agree d) (r : Resource) (ds : List Distribution) :
    Alike c (c.upsert r ds) (d.upsert r ds) := by
  rw [Catalog.upsert, Catalog.upsert]
  cases schema.check r with
  | error e => exact .error e
  | ok =>
      apply h.write
      intro db changed result hdb hresult
      obtain ⟨_, hupsert, heq⟩ := map_eq_ok.mp hresult
      cases heq
      exact hdb.upsert hupsert

private theorem edit (h : c.Agree d) (e : Edit) : Alike c (c.edit e) (d.edit e) := by
  cases e with
  | upsert r ds => exact (h.upsert r ds).map fun _ => none
  | upsertRecord record =>
      refine Alike.map ?_ fun _ => none
      rw [upsertRecord, upsertRecord, ← h.config]
      cases Record.read schema c.config record with
      | error e => exact .error e
      | ok written => exact h.upsert written.1 written.2
  | delete id =>
      refine Alike.map (h.write ?_) some
      rintro db changed result ⟨L, hL, rfl⟩ hresult
      rw [Ledger.remove_database] at hresult
      split at hresult
      · cases hresult
      · cases hresult
        exact ⟨_, hL.remove id, rfl⟩
  | cacheThumbnail id url =>
      refine Alike.map (h.write ?_) fun _ => none
      rintro db changed result ⟨L, hL, rfl⟩ hresult
      rw [Ledger.cacheThumbnail_database] at hresult
      cases hresult
      exact ⟨_, hL.cacheThumbnail id url, rfl⟩
  | cacheStaticMap id url =>
      refine Alike.map (h.write ?_) fun _ => none
      rintro db changed result ⟨L, hL, rfl⟩ hresult
      rw [Ledger.cacheStaticMap_database] at hresult
      cases hresult
      exact ⟨_, hL.cacheStaticMap id url, rfl⟩

theorem call (h : c.Agree d) (q : Call) : Alike c (c.call q) (d.call q) := by
  have hget (ids : List String) : c.getMany ids = d.getMany ids := h.read _ _
  cases q with
  | edit e => exact (h.edit e).map _
  | importBulk records =>
      refine Alike.map ?_ _
      rw [importBulk, importBulk, ← h.config]
      apply h.write
      intro db changed report hdb hresult
      have hchanged : (db.importRecords schema c.config records).1 = changed :=
        congrArg Prod.fst (Except.ok.inj hresult)
      exact hchanged ▸ (Database.kept_sound c.config).importRecords hdb records
  | importTabular rows aliases =>
      refine Alike.map ?_ _
      rw [importTabular, importTabular, ← h.config]
      apply h.write
      intro db changed summary hdb hresult
      exact (Database.kept_sound c.config).importRows hdb hresult
  | get id =>
      refine h.alike_read ?_ _
      rw [get, get, hget]
  | getMany ids => exact h.alike_read (hget ids) _
  | search request =>
      refine h.alike_read ?_ _
      rw [search, search, h.config, h.read]
  | facetedSearch request =>
      refine h.alike_read ?_ _
      rw [facetedSearch, facetedSearch, h.config, h.read]
  | distinctValues field limit =>
      refine h.alike_read ?_ _
      rw [distinctValues, distinctValues, h.config, h.read]
  | count => exact h.alike_read (h.read _ _) _
  | exportRecords =>
      refine h.alike_read ?_ _
      rw [exportRecords, exportRecords, h.config, h.read]
  | staticMap id => exact h.alike_read (h.read _ _) _

end Agree

end Catalog

/-! Runs with restarts -/

namespace Session

/-- Its file, if a session is at home in one, holds what its catalog holds. -/
def Kept (s : Session) : Prop :=
  s.atHome = true → ∀ stored, s.place = .file stored → s.catalog.database = some stored

variable {s t : Session} {c : Catalog}

private theorem kept_settle (h : s.atHome = true → ∀ stored, s.place = .file stored →
    c.database.isSome) : (s.settle c).Kept := by
  intro hhome stored hplace
  change s.atHome = true at hhome
  simp only [settle, hhome, if_true] at hplace ⊢
  cases hs : s.place with
  | memory =>
      rw [hs] at hplace
      cases hplace
  | unreachable =>
      rw [hs] at hplace
      cases hplace
  | file old =>
      obtain ⟨db, hdb⟩ := Option.isSome_iff_exists.mp (h hhome old hs)
      rw [hs, hdb] at hplace
      cases hplace
      exact hdb

private theorem kept_opened {stored : Database} (hstored : stored.OpensWith Ledger.Sound)
    {place : Place}
    (hplace : place = .file stored) (config : Config) (sink : Option Sink) :
    (place.openCatalog config sink).database.isSome := by
  obtain ⟨ready, -, hready⟩ := hstored
  simp only [hplace, Place.openCatalog, Catalog.prepared_eq hready, Option.isSome_some]

/-- A snapshot of the database of a sound ledger can be taken and gives the database back, whether
or not it is compressed and its checksum is looked at. -/
theorem exists_snapshot {db : Database} (hdb : c.database = some db) (hsound : db.Sound) :
    ∃ found, c.snapshot = .ok found ∧
      ∀ sink, Catalog.restoreSnapshot c.config sink found = { c with sink } := by
  have hprepare := hsound.prepare
  obtain ⟨L, -, rfl⟩ := hsound
  refine ⟨L.snapshot c.config.compressSnapshots, ?_, fun sink => ?_⟩
  · simp only [Catalog.snapshot, hdb, Ledger.snapshot_database, engineResult]
  · simp only [Catalog.restoreSnapshot, Catalog.ofSnapshot, Database.ofSnapshot,
      Snapshot.database?, Ledger.snapshot, Bool.not_true, Bool.and_false, Bool.false_eq_true,
      if_false, Payload.database?, Catalog.schema, hprepare, engineResult, hdb]

private theorem snapshot_degraded (hnone : c.database = none) :
    c.snapshot = .error .unavailable := by
  simp only [Catalog.snapshot, hnone]

private theorem reopened_catalog {stored : Database} (hplace : s.place = .file stored)
    (hdb : s.catalog.database = some stored) (hsound : stored.Sound) :
    s.reopened.catalog = s.catalog := by
  simp only [reopened, settle, hplace, Place.openCatalog, Catalog.prepared_eq hsound.prepare, ← hdb]

theorem Kept.restarted (h : s.Kept) (hagree : s.catalog.Agree c) (sink : Option Sink)
    (way : Restart) : (s.restarted sink way).Kept ∧ (s.restarted sink way).catalog.Agree c := by
  have hsunk : Catalog.Agree { s.catalog with sink } c :=
    ⟨hagree.config, hagree.database, hagree.sound⟩
  cases way with
  | fromSnapshot =>
      cases hdb : s.catalog.database with
      | none =>
          simp only [Session.restarted, snapshot_degraded hdb]
          exact ⟨h, hagree⟩
      | some db =>
          obtain ⟨found, hfound, hrestored⟩ := exists_snapshot hdb (hagree.sound db hdb)
          simp only [Session.restarted, hfound, hrestored]
          refine ⟨fun hhome => ?_, hsunk⟩
          exact absurd hhome Bool.false_ne_true
  | fromFile =>
      rw [Session.restarted]
      split
      next stored hhome hplace =>
        have hdb := h hhome stored hplace
        have hsound := hagree.sound stored hdb
        refine ⟨?_, ?_⟩
        · apply kept_settle
          intro _ held hheld
          exact kept_opened (Database.Stores.opensWith Ledger.kind_sound hsound) hplace _ _
        · rw [reopened_catalog (s := s.withSink sink) hplace hdb hsound]
          exact hsunk
      next => exact ⟨h, hagree⟩

theorem Kept.after (h : s.Kept) {x y : Except Error (Catalog × Answer)}
    (hagree : s.catalog.Agree t.catalog) (hxy : Catalog.Alike s.catalog x y) :
    (stateAfter s (x.map (Prod.map s.settle id))).Kept ∧
      (stateAfter s (x.map (Prod.map s.settle id))).catalog.Agree
        (stateAfter t (y.map (Prod.map t.settle id))).catalog ∧
      (x.map (Prod.map s.settle id)).map Prod.snd = (y.map (Prod.map t.settle id)).map Prod.snd := by
  cases hxy with
  | error e => exact ⟨h, hagree, rfl⟩
  | ok hcd hc a =>
      refine ⟨kept_settle fun hhome stored hplace => hc ?_, hcd, rfl⟩
      rw [Catalog.isAvailable, h hhome stored hplace]
      rfl

end Session

end Gazetteer
