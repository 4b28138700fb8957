import Gazetteer.Schema.Basic
import Gazetteer.Store.Declaration
/-!
The layout of a catalog's database: which tables and indexes there are, and what is added to
databases that lack some of it.  Only the tables themselves and their plain indexes have to come
into being; whatever else cannot be added is left out.
-/

namespace Gazetteer.Layout

/-- One row for a resource: its id, its scalar fields and its envelope. -/
def resources : String := "resources"

/-- One row for a value of a repeatable field. -/
def attributes : String := "resources_mv"

def distributions : String := "distributions"

/-- One row for a resource: the text in which it is searched. -/
def searchTexts : String := "resources_search"

def thumbnails : String := "resources_image_service"

def staticMaps : String := "static_maps"

def geometryColumns : List String :=
  ["geom_minx", "geom_miny", "geom_maxx", "geom_maxy"]

def plain (affinity : Affinity) : Declaration :=
  ⟨affinity, false, false, false, .null, false⟩

def key : Declaration :=
  { plain .text with primaryKey := true }

def requiredText : Declaration :=
  { plain .text with required := true }

def zeroByDefault : Declaration :=
  { plain .integer with required := true, fallback := .int 0 }

def resourceColumns (schema : Schema) : List (String × Declaration) :=
  ("id", key) :: (schema.scalarColumns.map (·, plain .text) ++
    geometryColumns.map (·, plain .real))

def attributeColumns : List (String × Declaration) :=
  [("id", requiredText), ("field", requiredText), ("value", requiredText)]

def distributionColumns : List (String × Declaration) :=
  [("resource_id", requiredText), ("relation_key", requiredText), ("url", requiredText),
    ("label", plain .text), ("position", zeroByDefault)]

def searchTextColumns : List (String × Declaration) :=
  [("id", key), ("content", requiredText)]

def thumbnailColumns : List (String × Declaration) :=
  [("id", key), ("thumbnail_url", plain .text)]

def staticMapColumns : List (String × Declaration) :=
  [("id", key), ("image_url", plain .text)]

def plainIndex (name : String) (columns : List String) : Index :=
  ⟨name, columns.map .column, false⟩

/-- No two distributions of a resource agree in relation, address and label. -/
def labeledIndex : Index :=
  ⟨"idx_distributions_labeled",
    [.column "resource_id", .column "relation_key", .column "url", .orEmpty "label"], true⟩

/-- The index that an earlier layout had in the place of `labeledIndex`. -/
def unlabeledIndexName : String := "idx_distributions_unique"

def geometryIndex : Index :=
  plainIndex "idx_resources_geom" ["geom_minx", "geom_maxx", "geom_miny", "geom_maxy"]

def make (name : String) (columns : List (String × Declaration)) : Except Fault Table :=
  (Name.unquoteAll columns).bind (Table.ofDeclarations name)

/-- The columns that a database of an earlier layout may lack. -/
def laterColumns (schema : Schema) : List (String × String × Declaration) :=
  schema.scalarColumns.map (fun column => (resources, column, plain .text)) ++
    geometryColumns.map (fun column => (resources, column, plain .real)) ++
    [(distributions, "label", plain .text), (distributions, "position", zeroByDefault),
      (thumbnails, "updated_at", plain .text), (staticMaps, "updated_at", plain .text)]

end Gazetteer.Layout

namespace Gazetteer.Database

open Layout

/-- The steps that a database cannot do without, in their order.  The names of the resources' columns
are read even where their table is there already. -/
def baseSteps (schema : Schema) : List (Database → Except Fault Database) :=
  [fun db => (Name.unquoteAll (resourceColumns schema)).map fun _ => db,
    (·.ensureTable resources (make resources (resourceColumns schema))),
    (·.ensureTable attributes (make attributes attributeColumns)),
    (·.ensureIndex attributes (plainIndex "idx_resources_mv_field_value" ["field", "value"])),
    (·.ensureIndex attributes (plainIndex "idx_resources_mv_id" ["id"])),
    (·.ensureTable distributions (make distributions distributionColumns)),
    (·.ensureIndex distributions (plainIndex "idx_distributions_resource" ["resource_id"])),
    (·.ensureTable searchTexts (make searchTexts searchTextColumns)),
    (·.ensureTable thumbnails (make thumbnails thumbnailColumns)),
    (·.ensureTable staticMaps (make staticMaps staticMapColumns))]

/-- The database after all steps, or the fault of the first one that fails. -/
def afterAll (db : Database) : List (Database → Except Fault Database) → Except Fault Database
  | [] => .ok db
  | step :: rest =>
      match step db with
      | .error fault => .error fault
      | .ok changed => changed.afterAll rest

/-- The database with a column added to a table, unless it has one of that name up to the case of
its letters, and whether one was added. -/
def addColumn (db : Database) (name column : String) (declaration : Option Declaration) :
    Except Fault (Database × Bool) :=
  match db.table? name with
  | none => .error (.noTable name)
  | some t =>
      if t.columns.any fun c => Text.lowercase c.name == Text.lowercase column then .ok (db, false)
      else
        match declaration with
        | none => .error .badDeclaration
        | some d =>
            match Name.unquote? column with
            | none => .error .badDeclaration
            | some read => (t.addDeclared read d).map fun changed => (db.put changed, true)

def addLaterColumns (schema : Schema) (db : Database) : Database :=
  (laterColumns schema).foldl (fun db (name, column, d) =>
    match db.addColumn name column (some d) with
    | .ok (changed, _) => changed
    | .error _ => db) db

/-- The rows of a table that belong to a resource by their id. -/
def belonging (db : Database) (table : String) (r : Row) : List Row :=
  let id := r.cell "id"
  let left := db.affinity table "id"
  let right := db.affinity resources "id"
  (db.rows table).filter fun other => Cell.joins left right (other.cell "id") id

def tryIndex (db : Database) (name : String) (i : Index) : Database :=
  match db.ensureIndex name i with
  | .ok changed => changed
  | .error _ => db

/-- The database with all that its layout gained since. -/
def addLater (schema : Schema) (db : Database) : Database :=
  (((db.addLaterColumns schema).tryIndex resources geometryIndex).dropIndex
    unlabeledIndexName).tryIndex distributions labeledIndex

end Gazetteer.Database
