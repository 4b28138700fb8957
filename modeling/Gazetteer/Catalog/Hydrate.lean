import Gazetteer.Store.Layout
/-!
Reading resources back: the scalar rows of the wanted ids, with their thumbnails, and the attribute
and distribution rows that belong to them.  The ids are read in chunks of bounded size.
-/

namespace Gazetteer

namespace Cell

def toString? (column : String) (c : Cell) : Except Fault String :=
  match c with
  | .text s => .ok s
  | _ => .error (.unexpectedType column)

def toStringOrNull? (column : String) (c : Cell) : Except Fault (Option String) :=
  match c with
  | .null => .ok none
  | .text s => .ok (some s)
  | _ => .error (.unexpectedType column)

end Cell

namespace Database

open Layout

/-- The name under which the thumbnail joins the columns of a resource. -/
def thumbnailColumn : String := "__thumbnail"

def hasId (db : Database) (table column : String) (ids : List String) (r : Row) : Bool :=
  let affinity := db.affinity table column
  let c := r.cell column
  ids.any fun id => c.equals ((Cell.text id).against affinity)

/-- The named cells of a resource, and its thumbnail: one list for each thumbnail, and one without
if there is none. -/
def joinThumbnails (db : Database) (columns : List Column) (r : Row) :
    List (List (String × Cell)) :=
  let own := columns.map fun c => (c.name, r.cell c.name)
  match db.belonging thumbnails r with
  | [] => [own ++ [(thumbnailColumn, .null)]]
  | found => found.map fun t => own ++ [(thumbnailColumn, t.cell "thumbnail_url")]

/-- The envelope of a row, if all of its four edges are numbers. -/
def envelopeOfCells (cells : List (String × Cell)) : Option Envelope := do
  let edge (column : String) : Option Float :=
    (findEntry column cells).bind Cell.number?
  return ⟨← edge "geom_minx", ← edge "geom_miny", ← edge "geom_maxx", ← edge "geom_maxy"⟩

/-- One column put into a resource.  Columns without a text are passed over. -/
def setColumn (r : Resource) (column : String) (c : Cell) : Resource :=
  if geometryColumns.contains column then r
  else
    match c.shown? with
    | none => r
    | some text =>
        if column == "id" then { r with id := text }
        else if column == thumbnailColumn then { r with thumbnail := some text }
        else r.setScalar column text

def resourceOfCells (cells : List (String × Cell)) : Resource :=
  let r := cells.foldl (fun r entry => setColumn r entry.1 entry.2) (.ofId "")
  { r with geometry := envelopeOfCells cells }

def readScalars (ids : List String) (db : Database) : Except Fault (List Resource) :=
  match db.need [(thumbnails, "thumbnail_url"), (thumbnails, "id"), (resources, "id")] with
  | .error fault => .error fault
  | .ok () =>
      (db.table resources).map fun t =>
        ((t.rows.filter (db.hasId resources "id" ids)).flatMap
          (db.joinThumbnails t.columns)).map resourceOfCells

def inOrder (columns : List String) (a b : Row) : Bool :=
  columns.foldr (fun column rest =>
    match Cell.compare .binary (a.cell column) (b.cell column) with
    | .lt => true
    | .gt => false
    | .eq => rest) true

def attributeOfRow (r : Row) : Except Fault (String × String × String) := do
  let id ← (r.cell "id").toString? "id"
  let field ← (r.cell "field").toString? "field"
  let value ← (r.cell "value").toString? "value"
  return (id, field, value)

def readAttributes (ids : List String) (db : Database) :
    Except Fault (List (String × String × String)) :=
  match db.need [(attributes, "id"), (attributes, "field"), (attributes, "value")] with
  | .error fault => .error fault
  | .ok () =>
      (((db.rows attributes).filter (db.hasId attributes "id" ids)).mergeSort
        (inOrder ["id", "field"])).mapM attributeOfRow

def distributionOfRow (r : Row) : Except Fault (String × Distribution) := do
  let id ← (r.cell "resource_id").toString? "resource_id"
  let relation ← (r.cell "relation_key").toString? "relation_key"
  let url ← (r.cell "url").toString? "url"
  let label ← (r.cell "label").toStringOrNull? "label"
  return (id, ⟨relation, url, label⟩)

def readDistributions (ids : List String) (db : Database) :
    Except Fault (List (String × Distribution)) :=
  match db.need (["resource_id", "relation_key", "url", "label", "position"].map
      (distributions, ·)) with
  | .error fault => .error fault
  | .ok () =>
      (((db.rows distributions).filter (db.hasId distributions "resource_id" ids)).mergeSort
        (inOrder ["resource_id", "position"])).mapM distributionOfRow

/-- The resources read so far, by id. -/
abbrev Found := Dict Resource

def addAttribute (found : Found) (entry : String × String × String) : Found :=
  found.modify entry.1 fun r => r.setValues entry.2.1 (r.values entry.2.1 ++ [entry.2.2])

def addDistribution (found : Found) (entry : String × Distribution) : Found :=
  found.modify entry.1 fun r => { r with distributions := r.distributions ++ [entry.2] }

def readChunk (db : Database) (found : Found) (ids : List String) : Except Fault Found := do
  let scalars ← db.readScalars ids
  let values ← db.readAttributes ids
  let places ← db.readDistributions ids
  let found := scalars.foldl (fun found r => found.insert r.id r) found
  let found := values.foldl addAttribute found
  return places.foldl addDistribution found

/-- A list cut into pieces of `n + 1` items, the last one perhaps shorter. -/
def chunksOf {α : Type} (n : Nat) : List α → List (List α)
  | [] => []
  | a :: rest => (a :: rest.take n) :: chunksOf n (rest.drop n)
termination_by items => items.length
decreasing_by
  rw [List.length_drop, List.length_cons]
  omega

def chunkSize : Nat := 500

def readChunks (db : Database) (found : Found) : List (List String) → Except Fault Found
  | [] => .ok found
  | ids :: rest =>
      match db.readChunk found ids with
      | .error fault => .error fault
      | .ok more => db.readChunks more rest

/-- The resources of the given ids in their order.  Unknown ids are left out, and of a repeated id
all but the first. -/
def hydrate (ids : List String) (db : Database) : Except Fault (List Resource) :=
  (db.readChunks .empty (chunksOf (chunkSize - 1) ids)).map fun found =>
    ids.eraseDups.filterMap found.get?

def allIds (db : Database) : Except Fault (List String) :=
  match db.need [(resources, "id")] with
  | .error fault => .error fault
  | .ok () =>
      ((db.rows resources).mergeSort (inOrder ["id"])).mapM fun r => (r.cell "id").toString? "id"

def count (db : Database) : Except Fault Nat :=
  (db.table resources).map fun t => t.rows.length

def staticMap? (id : String) (db : Database) : Except Fault (Option String) :=
  match db.table staticMaps with
  | .error fault => .error fault
  | .ok t =>
      match t.need ["image_url", "id"] with
      | .error fault => .error fault
      | .ok () =>
          match t.select "id" id with
          | [] => .ok none
          | r :: _ => (r.cell "image_url").toStringOrNull? "image_url"

end Database

end Gazetteer
