import Gazetteer.Store.Backfill
/-!
Writing one resource.  A write replaces all that is stored for an id, step by step; a step that
fails undoes the whole write, since every step gives a new database and the old one stays.
-/

namespace Gazetteer

inductive Replacement
  | full
  /-- All but its distributions. -/
  | metadata
deriving DecidableEq, Repr

/-- A result of the store within the writing of a resource. -/
def Step.result {α : Type} (step : Step) (id : String) : Except Fault α → Except Error α
  | .ok a => .ok a
  | .error _ => .error (.unreconciled id step)

/-- A result of the store elsewhere. -/
def engineResult {α : Type} : Except Fault α → Except Error α
  | .ok a => .ok a
  | .error fault => .error (.engine fault)

namespace Cell

/-- The whole number that a text begins with, zero if it begins with none; nothing if that number
has a fraction or an exponent. -/
def leadingWhole? (s : String) : Option Int :=
  let body := s.toList.dropWhile isTypewriterSpace
  let (negative, unsigned) :=
    match body with
    | '-' :: rest => (true, rest)
    | '+' :: rest => (false, rest)
    | rest => (false, rest)
  let digits := unsigned.takeWhile Char.isDigit
  let value : Int := Number.digitsValue digits
  match unsigned.dropWhile Char.isDigit with
  | '.' :: _ => none
  | 'e' :: _ => if digits.isEmpty then some 0 else none
  | 'E' :: _ => if digits.isEmpty then some 0 else none
  | _ => some (if negative then -value else value)

def successor? (c : Cell) : Option Int :=
  let value? : Option Int :=
    match c with
    | .int n => some n
    | .text s => leadingWhole? s
    | .blob _ => some 0
    | _ => none
  (value?.map (· + 1)).filter isWord

end Cell

namespace Database

open Layout

def clear (id : String) (step : Step) (table column : String) (db : Database) :
    Except Error Database :=
  step.result id ((db.delete table column id).map Prod.fst)

/-- The scalar row of a resource: its fields, and the envelope that the box text gives. -/
def scalarCells (r : Resource) : List (String × Cell) :=
  ("id", .text r.id) :: (r.scalars.entries.map (fun entry => (entry.1, Cell.text entry.2)) ++
    geometryCells (r.boxText?.bind Envelope.parse?))

def insertScalars (r : Resource) (db : Database) : Except Error Database :=
  Step.insertScalarRow.result r.id
    (((Name.unquoteAll (scalarCells r)).bind (db.insert resources .abort)).map Prod.fst)

/-- The values that are kept of a field: blank ones go, and of equal ones all but the first. -/
def keptValues (values : List String) : List String :=
  (values.filter fun value => !Text.allBlank value).eraseDups

def attributePairs (r : Resource) : List (String × String) :=
  r.repeatables.entries.flatMap fun entry => (keptValues entry.2).map (entry.1, ·)

def insertPairs (id : String) (db : Database) : List (String × String) → Except Fault Database
  | [] => .ok db
  | (field, value) :: rest =>
      match db.insert attributes .abort
          [("id", .text id), ("field", .text field), ("value", .text value)] with
      | .error fault => .error fault
      | .ok (changed, _) => changed.insertPairs id rest

/-- Whether rows with the given columns could be inserted into a table at all. -/
def canInsert (db : Database) (name : String) (columns : List String) : Except Fault Unit :=
  match db.table name with
  | .error fault => .error fault
  | .ok t =>
      match t.need columns with
      | .error fault => .error fault
      | .ok () => t.checkRules .insert

def insertAttributes (r : Resource) (db : Database) : Except Error Database :=
  match Step.prepareAttributeInsert.result r.id
      (db.canInsert attributes ["id", "field", "value"]) with
  | .error e => .error e
  | .ok () => Step.insertAttributeRow.result r.id (db.insertPairs r.id (attributePairs r))

def nextPosition (id : String) (db : Database) : Except Fault Int :=
  match db.table distributions with
  | .error fault => .error fault
  | .ok t =>
      match t.need ["position", "resource_id"] with
      | .error fault => .error fault
      | .ok () =>
          let taken := ((t.select "resource_id" id).map fun row => row.cell "position").filter
            fun c => !c.isNull
          match Cell.maximum? taken with
          | none => .ok 0
          | some last =>
              match last.successor? with
              | some n => .ok n
              | none => .error (.unexpectedType "position")

def distributionCells (id : String) (d : Distribution) (position : Int) :
    List (String × Cell) :=
  [("resource_id", .text id), ("relation_key", .text d.relation), ("url", .text d.url),
    ("label", (d.label.map Cell.text).getD .null), ("position", .int position)]

/-- Distributions inserted at ascending positions, those left out that are stored already; and how
many rows were inserted. -/
def insertDistributions (id : String) (db : Database) (position : Int) (count : Nat) :
    List Distribution → Except Fault (Database × Nat)
  | [] => .ok (db, count)
  | d :: rest =>
      match db.insert distributions .ignore (distributionCells id d position) with
      | .error fault => .error fault
      | .ok (changed, inserted) =>
          changed.insertDistributions id (position + 1) (if inserted then count + 1 else count) rest

def append (id : String) (ds : List Distribution) (db : Database) :
    Except Error (Database × Nat) :=
  if ds.isEmpty then .ok (db, 0)
  else
    match Step.readDistributionPosition.result id (db.nextPosition id) with
    | .error e => .error e
    | .ok next =>
        match Step.prepareDistributionInsert.result id
            (db.canInsert distributions ((distributionCells id default 0).map Prod.fst)) with
        | .error e => .error e
        | .ok () => Step.insertDistribution.result id (db.insertDistributions id next 0 ds)

def insertSearchText (schema : Schema) (r : Resource) (db : Database) : Except Error Database :=
  Step.insertSearchContent.result r.id
    ((db.insert searchTexts .abort
      [("id", .text r.id), ("content", .text (schema.searchContent r))]).map Prod.fst)

/-- All that is stored for a resource replaced.  The given distributions come after those that
stay. -/
def replace (schema : Schema) (r : Resource) (ds : List Distribution) (extent : Replacement)
    (db : Database) : Except Error Database := do
  let db ← db.clear r.id .deleteScalarRow resources "id"
  let db ← db.clear r.id .deleteAttributeRows attributes "id"
  let db ←
    match extent with
    | .full => db.clear r.id .deleteDistributions distributions "resource_id"
    | .metadata => .ok db
  let db ← db.clear r.id .deleteSearchContent searchTexts "id"
  let db ← db.insertScalars r
  let db ← db.insertAttributes r
  let (db, _) ← db.append r.id ds
  db.insertSearchText schema r

def upsert (schema : Schema) (r : Resource) (ds : List Distribution) (db : Database) :
    Except Error Database :=
  match schema.check r with
  | .error e => .error e
  | .ok () => db.replace schema r ds .full

def remove (id : String) (db : Database) : Except Error (Database × Bool) :=
  if Text.allBlank id then .error (.invalid .idRequired)
  else do
    let (db, removed) ← Step.deleteScalarRow.result id (db.delete resources "id" id)
    let db ← db.clear id .deleteAttributeRows attributes "id"
    let db ← db.clear id .deleteDistributions distributions "resource_id"
    let db ← db.clear id .deleteSearchContent searchTexts "id"
    let db ← db.clear id .deleteThumbnail thumbnails "id"
    let db ← db.clear id .deleteStaticMap staticMaps "id"
    return (db, removed != 0)

/-- What stands for the time of a change. -/
def stamp : Cell :=
  .text "now"

def cache (table column id url : String) (db : Database) : Except Error Database :=
  engineResult ((db.modify table fun t =>
    (t.upsert "id" [("id", .text id), (column, .text url), ("updated_at", stamp)]).map
      fun changed => (changed, ())).map Prod.fst)

def cacheThumbnail (id url : String) (db : Database) : Except Error Database :=
  db.cache thumbnails "thumbnail_url" id url

def cacheStaticMap (id url : String) (db : Database) : Except Error Database :=
  db.cache staticMaps "image_url" id url

end Database

end Gazetteer
