import Gazetteer.Catalog.Basic
/-!
Sessions: a catalog and the place that it was opened at.  A file keeps what is written to it while
the catalog is at home there; a restored catalog lives in memory.
-/

namespace Gazetteer

inductive Place
  | memory
  | file (stored : Database)
  | unreachable
deriving DecidableEq

namespace Place

def openCatalog (config : Config) (sink : Option Sink) : Place → Catalog
  | memory => .fresh config sink
  | file stored => ⟨config, Catalog.prepared stored, sink⟩
  | unreachable => ⟨config, none, sink⟩

/-- The place after its catalog has come to hold a database. -/
def keep (place : Place) (database : Option Database) : Place :=
  match place, database with
  | file _, some db => file db
  | other, _ => other

end Place

structure Session where
  place : Place
  catalog : Catalog
  /-- Whether the catalog is the one that was opened at the place. -/
  atHome : Bool
deriving DecidableEq

inductive Backup
  | absent
  | bytes (raw : List UInt8)
  /-- A snapshot taken of the catalog itself. -/
  | own (damage : Option Damage)
  /-- The bytes of such a snapshot. -/
  | ownBytes (damage : Option Damage)
  /-- The latest snapshot of the sink. -/
  | sink (damage : Option Damage)
deriving DecidableEq

namespace Session

def settle (s : Session) (c : Catalog) : Session :=
  { s with catalog := c, place := if s.atHome then s.place.keep c.database else s.place }

def start (place : Place) (config : Config) (sink : Option Sink) : Session :=
  settle ⟨place, place.openCatalog config sink, true⟩ (place.openCatalog config sink)

def reopened (s : Session) : Session :=
  let c := s.place.openCatalog s.catalog.config s.catalog.sink
  settle { s with atHome := true } c

/-- The session with a catalog in memory in the place of its own. -/
def moved (s : Session) (c : Catalog) : Session :=
  { s with catalog := c, atHome := false }

def write {α : Type} (s : Session) (operation : Catalog → Except Error (Catalog × α)) :
    Except Error (Session × α) :=
  (operation s.catalog).map fun (c, result) => (s.settle c, result)

def spoilt (snapshot : Snapshot) : Option Damage → Snapshot
  | some damage => snapshot.damaged damage
  | none => snapshot

/-- The session restored from a backup; nothing if there is no such backup. -/
def restored (s : Session) (backup : Backup) : Except Error (Option Session) :=
  let c := s.catalog
  match backup with
  | .absent => .ok (some (s.moved (.restoreBytes c.config c.sink none)))
  | .bytes raw => .ok (some (s.moved (.restoreBytes c.config c.sink (some raw))))
  | .own damage =>
      c.snapshot.map fun found =>
        some (s.moved (.restoreSnapshot c.config c.sink (spoilt found damage)))
  | .ownBytes damage =>
      c.snapshot.map fun found => some (s.moved (.restore c.config c.sink (spoilt found damage)))
  | .sink damage =>
      match c.sink.bind Sink.latest with
      | none => .ok none
      | some found =>
          .ok (some (s.moved (.restoreSnapshot c.config c.sink (spoilt found damage))))

/-- The records of the catalog taken into a catalog in memory, which takes its place. -/
def reimported (s : Session) : Except Error (Session × ImportReport) :=
  s.catalog.reimported.map fun (c, report) => (s.moved c, report)

end Session

end Gazetteer
