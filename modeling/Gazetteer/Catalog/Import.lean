import Gazetteer.Catalog.Write
import Gazetteer.Interchange.Table
/-!
Imports of many records or rows.  Each record or row is written on its own: one that cannot be
written leaves the database as the ones before it left it.
-/

namespace Gazetteer

structure ImportReport where
  processed : Nat
  /-- Records without an id. -/
  skipped : Nat
  failed : Nat
deriving DecidableEq, Repr, Inhabited

structure TableSummary where
  kind : TableKind
  /-- Resources written, or distributions added. -/
  added : Nat
deriving DecidableEq, Repr

namespace Database

def upsertRecord (schema : Schema) (config : Config) (record : Json) (db : Database) :
    Except Error Database :=
  match Record.read schema config record with
  | .error e => .error e
  | .ok (r, ds) => db.upsert schema r ds

def importRecord (schema : Schema) (config : Config) (state : Database × ImportReport)
    (record : Json) : Database × ImportReport :=
  let (db, report) := state
  match Record.id? record with
  | none => (db, { report with skipped := report.skipped + 1 })
  | some _ =>
      match db.upsertRecord schema config record with
      | .ok changed => (changed, { report with processed := report.processed + 1 })
      | .error _ => (db, { report with failed := report.failed + 1 })

def importRecords (schema : Schema) (config : Config) (records : List Json) (db : Database) :
    Database × ImportReport :=
  records.foldl (importRecord schema config) (db, ⟨0, 0, 0⟩)

/-- A resource that may be written put in the place of what was stored, beside the distributions
that it has. -/
def refresh (schema : Schema) (r : Resource) (ds : List Distribution) (db : Database) :
    Except Error Database :=
  match schema.check r with
  | .error e => .error e
  | .ok () => db.replace schema r ds .metadata

def importResourceRow (schema : Schema) (config : Config) (state : Database × Nat)
    (cells : FieldCells) : Database × Nat :=
  let (db, added) := state
  match cells.resource? schema config with
  | none => (db, added)
  | some (r, ds) =>
      match db.refresh schema r ds with
      | .ok changed => (changed, added + 1)
      | .error _ => (db, added)

def importDistributionRow (config : Config) (state : Database × Nat) (cells : FieldCells) :
    Database × Nat :=
  let (db, added) := state
  match cells.distribution? config with
  | none => (db, added)
  | some (id, d) =>
      match db.append id [d] with
      | .ok (changed, count) => (changed, added + count)
      | .error _ => (db, added)

def importRows (schema : Schema) (config : Config) (aliases : Dict String) (rows : List TableRow)
    (db : Database) : Except Error (Database × TableSummary) :=
  let cells := rows.map (FieldCells.ofRow aliases schema)
  match TableKind.ofRows aliases schema rows with
  | .resources =>
      let (changed, added) := cells.foldl (importResourceRow schema config) (db, 0)
      .ok (changed, ⟨.resources, added⟩)
  | .distributions =>
      let (changed, added) := cells.foldl (importDistributionRow config) (db, 0)
      .ok (changed, ⟨.distributions, added⟩)
  | .unrecognized => .error (.invalid .unrecognizedTable)

end Database

end Gazetteer
