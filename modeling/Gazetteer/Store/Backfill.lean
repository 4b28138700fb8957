import Gazetteer.Geometry.EnvelopeText
import Gazetteer.Store.Layout
import Gazetteer.Text.Like
/-!
The functions that queries call on cells, and the filling in of envelopes: rows with the text of an
envelope but without its four numbers get them.
-/

namespace Gazetteer

namespace Cell

def envelope? : Cell → Option Envelope
  | .text s => Envelope.parse? s
  | _ => none

def edges (c : Cell × Cell × Cell × Cell) :
    Option Float × Option Float × Option Float × Option Float :=
  (c.1.number?, c.2.1.number?, c.2.2.1.number?, c.2.2.2.number?)

/-- How much two boxes of cells overlap; null if a number is missing. -/
def overlap (stored query : Cell × Cell × Cell × Cell) : Cell :=
  ofFloat? (Envelope.overlapOfEdges (edges stored) (edges query))

def ofBool (b : Bool) : Cell :=
  .int (if b then 1 else 0)

/-- The functions of queries by name. -/
def call? (function : String) (arguments : List Cell) : Option Cell :=
  match function, arguments with
  | "try_num", [c] => some (ofFloat? c.number?)
  | "is_envelope", [c] => some (ofBool c.envelope?.isSome)
  | "bbox_iou", [a, b, c, d, e, f, g, h] => some (overlap (a, b, c, d) (e, f, g, h))
  | _, _ => none

end Cell

namespace Database

open Layout

def envelopeStart : List Char :=
  Envelope.keyword ++ ['(', '%']

def awaitsEnvelope (r : Row) : Bool :=
  (r.cell "geom_minx").isNull &&
    match (r.cell boxField).likeChars? with
    | some text => Text.isLike envelopeStart text
    | none => false

def awaiting (db : Database) : Except Fault (List Row) :=
  (db.need [(resources, "geom_minx"), (resources, boxField)]).map fun _ =>
    (db.rows resources).filter awaitsEnvelope

/-- How many rows await an envelope that can be read, and how many one that cannot. -/
def pending (db : Database) : Except Fault (Nat × Nat) :=
  db.awaiting.map fun rows =>
    let readable := rows.filter fun r => (r.cell boxField).envelope?.isSome
    (readable.length, rows.length - readable.length)

def candidates : List Row → Except Fault (List (String × Envelope))
  | [] => .ok []
  | r :: rest =>
      match (r.cell boxField).envelope? with
      | none => candidates rest
      | some e =>
          match (r.cell "id").string? with
          | none => .error (.unexpectedType "id")
          | some id => (candidates rest).map ((id, e) :: ·)

def geometryCells (envelope : Option Envelope) : List (String × Cell) :=
  match envelope with
  | some e => geometryColumns.zip [.real e.minX, .real e.minY, .real e.maxX, .real e.maxY]
  | none => geometryColumns.map (·, .null)

/-- The envelopes put into the rows of their ids, and how many rows were changed. -/
def fillEnvelopes (db : Database) (count : Nat) :
    List (String × Envelope) → Except Fault (Database × Nat)
  | [] => .ok (db, count)
  | (id, e) :: rest =>
      match db.modify resources fun t => t.change "id" id (geometryCells (some e)) with
      | .error fault => .error fault
      | .ok (changed, n) => changed.fillEnvelopes (count + n) rest

def backfill (db : Database) : Except Fault (Database × Nat) := do
  let rows ← db.awaiting
  if rows.all fun r => (r.cell boxField).envelope?.isNone then return (db, 0)
  db.need ((resources, "id") :: geometryColumns.map (resources, ·))
  db.fillEnvelopes 0 (← candidates rows)

/-- The database brought to the present layout. -/
def prepare (schema : Schema) (db : Database) : Except Fault Database :=
  match db.afterAll (baseSteps schema) with
  | .error fault => .error fault
  | .ok base =>
      let later := base.addLater schema
      match later.backfill with
      | .ok (filled, _) => .ok filled
      | .error _ => .ok later

def fresh (schema : Schema) : Except Fault Database :=
  empty.prepare schema

end Database

end Gazetteer
