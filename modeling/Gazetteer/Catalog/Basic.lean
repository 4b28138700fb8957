import Gazetteer.Catalog.Import
import Gazetteer.Catalog.Search
import Gazetteer.Catalog.Snapshot
import Gazetteer.Schema.Aardvark
/-!
The catalog: a database of Aardvark resources with its settings, and a sink that gets a snapshot
after every write.  A catalog without a database answers reads with nothing and takes no notice of
writes.
-/

namespace Gazetteer

structure Sink where
  flushes : Nat
  latest : Option Snapshot
deriving DecidableEq

structure Catalog where
  config : Config
  database : Option Database
  sink : Option Sink
deriving DecidableEq

namespace Catalog

def schema : Schema := .aardvark

def isAvailable (c : Catalog) : Bool :=
  c.database.isSome

/-- A database as the catalog uses it; nothing if it cannot be brought to the present layout. -/
def prepared (db : Database) : Option Database :=
  match db.prepare schema with
  | .ok ready => some ready
  | .error _ => none

def fresh (config : Config) (sink : Option Sink) : Catalog :=
  ⟨config, prepared .empty, sink⟩

/-- The catalog with its database handed to the sink. -/
def flush (c : Catalog) (db : Database) : Except Error Catalog :=
  match c.sink with
  | none => .ok { c with database := some db }
  | some sink =>
      match db.snapshot c.config.compressSnapshots with
      | .error fault => .error (.engine fault)
      | .ok s => .ok { c with database := some db, sink := some ⟨sink.flushes + 1, some s⟩ }

/-- A write; without a database its result is `idle`. -/
def write {α : Type} (c : Catalog) (idle : α)
    (operation : Database → Except Error (Database × α)) : Except Error (Catalog × α) :=
  match c.database with
  | none => .ok (c, idle)
  | some db =>
      match operation db with
      | .error e => .error e
      | .ok (changed, result) => (c.flush changed).map fun flushed => (flushed, result)

/-- A read; without a database its result is `idle`. -/
def read {α : Type} (c : Catalog) (idle : α) (operation : Database → Except Error α) :
    Except Error α :=
  match c.database with
  | none => .ok idle
  | some db => operation db

/-- All that is stored for the resource replaced. -/
def upsert (c : Catalog) (r : Resource) (ds : List Distribution) :
    Except Error (Catalog × Unit) :=
  match schema.check r with
  | .error e => .error e
  | .ok () => c.write () fun db => (db.upsert schema r ds).map (·, ())

def upsertRecord (c : Catalog) (record : Json) : Except Error (Catalog × Unit) :=
  match Record.read schema c.config record with
  | .error e => .error e
  | .ok (r, ds) => c.upsert r ds

def delete (c : Catalog) (id : String) : Except Error (Catalog × Bool) :=
  c.write false fun db => db.remove id

def importBulk (c : Catalog) (records : List Json) : Except Error (Catalog × ImportReport) :=
  c.write ⟨0, 0, 0⟩ fun db => .ok (db.importRecords schema c.config records)

/-- Rows imported, with aliases for their columns that stand for those of the settings. -/
def importTabular (c : Catalog) (rows : List TableRow) (aliases : Option (Dict String)) :
    Except Error (Catalog × TableSummary) :=
  let aliases := aliases.getD c.config.aliases
  c.write ⟨.ofRows aliases schema rows, 0⟩ fun db => db.importRows schema c.config aliases rows

def cacheThumbnail (c : Catalog) (id url : String) : Except Error (Catalog × Unit) :=
  c.write () fun db => (db.cacheThumbnail id url).map (·, ())

def cacheStaticMap (c : Catalog) (id url : String) : Except Error (Catalog × Unit) :=
  c.write () fun db => (db.cacheStaticMap id url).map (·, ())

def search (c : Catalog) (request : Request) : Except Error Response :=
  c.read .empty fun db => db.search schema c.config request

def facetedSearch (c : Catalog) (request : Request) : Except Error Response :=
  c.read .empty fun db => db.facetedSearch schema c.config request

def distinctValues (c : Catalog) (field : String) (limit : Option Nat) :
    Except Error (List Bucket) :=
  c.read [] fun db => db.distinctValues schema c.config ⟨field, limit⟩

def getMany (c : Catalog) (ids : List String) : Except Error (List Resource) :=
  c.read [] fun db => engineResult (db.hydrate ids)

def get (c : Catalog) (id : String) : Except Error Resource :=
  match c.getMany [id] with
  | .error e => .error e
  | .ok found =>
      match found.getLast? with
      | some r => .ok r
      | none => .error (.notFound id)

def count (c : Catalog) : Except Error Nat :=
  c.read 0 fun db => engineResult db.count

def exportRecords (c : Catalog) : Except Error (List Json) :=
  c.read [] fun db =>
    match db.allIds with
    | .error fault => .error (.engine fault)
    | .ok ids => (engineResult (db.hydrate ids)).map (List.map (Record.ofResource c.config))

def staticMap? (c : Catalog) (id : String) : Except Error (Option String) :=
  c.read none fun db => engineResult (db.staticMap? id)

def snapshot (c : Catalog) : Except Error Snapshot :=
  match c.database with
  | none => .error .unavailable
  | some db => engineResult (db.snapshot c.config.compressSnapshots)

/-- The catalog with the database of a snapshot, or without resources if that cannot be used. -/
def ofSnapshot (config : Config) (sink : Option Sink) (s : Snapshot) (verify : Bool) : Catalog :=
  match Database.ofSnapshot schema s verify with
  | .ok db => ⟨config, some db, sink⟩
  | .error _ => fresh config sink

def restoreSnapshot (config : Config) (sink : Option Sink) (s : Snapshot) : Catalog :=
  ofSnapshot config sink s config.verifySnapshots

def restore (config : Config) (sink : Option Sink) (s : Snapshot) : Catalog :=
  ofSnapshot config sink s false

def restoreBytes (config : Config) (sink : Option Sink) (bytes : Option (List UInt8)) : Catalog :=
  restore config sink ⟨.bytes (bytes.getD []), 0, false, true⟩

/-- A catalog without resources that took in all records of this one. -/
def reimported (c : Catalog) : Except Error (Catalog × ImportReport) :=
  match c.exportRecords with
  | .error e => .error e
  | .ok records => (fresh c.config c.sink).importBulk records

end Catalog

end Gazetteer
