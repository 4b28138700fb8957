import Gazetteer.Query.Predicate
/-!
Sort keys: how the results of a request are ordered.  Whatever a request asks for, title and id
come last, so that no two resources tie.
-/

namespace Gazetteer

inductive SortKey
  /-- Resources that overlap the box more come first. -/
  | overlap (box : Envelope)
  | scalar (field : String) (numeric : Bool) (direction : Direction)
  /-- The least value of a field, or the greatest one when descending. -/
  | best (field : String) (numeric : Bool) (direction : Direction)
  | id
deriving DecidableEq

def Direction.keyword : Direction → String
  | .ascending => "ASC"
  | .descending => "DESC"

namespace SortKey

open Layout

def expression : SortKey → String
  | overlap _ =>
      "COALESCE(bbox_iou(r.geom_minx, r.geom_miny, r.geom_maxx, r.geom_maxy, ?, ?, ?, ?), -1)"
  | scalar field numeric _ =>
      if numeric then "try_num(" ++ scalarColumn field ++ ")" else scalarColumn field
  | best _ numeric direction =>
      let aggregate :=
        match direction with
        | .ascending => "MIN"
        | .descending => "MAX"
      let value := if numeric then "try_num(m.value)" else "m.value"
      "(SELECT " ++ aggregate ++ "(" ++ value ++
        ") FROM resources_mv m WHERE m.id = r.id AND m.field = ?)"
  | id => "r.id"

def expressionParams : SortKey → List Cell
  | overlap box => [.real box.minX, .real box.minY, .real box.maxX, .real box.maxY]
  | best field _ _ => [.text field]
  | _ => []

/-- Missing keys come last in either direction. -/
def valueFragment (k : SortKey) (numeric : Bool) (direction : Direction) : Fragment :=
  let collation := if numeric then "" else " COLLATE NOCASE"
  ⟨k.expression ++ " IS NULL, " ++ k.expression ++ collation ++ " " ++ direction.keyword,
    k.expressionParams ++ k.expressionParams⟩

def fragment : SortKey → Fragment
  | overlap box => ⟨(overlap box).expression ++ " DESC", (overlap box).expressionParams⟩
  | scalar field numeric direction =>
      (scalar field numeric direction).valueFragment numeric direction
  | best field numeric direction => (best field numeric direction).valueFragment numeric direction
  | id => ⟨id.expression ++ " ASC", []⟩

def needs : SortKey → List (String × String)
  | overlap _ => geometryColumns.map (resources, ·)
  | scalar field _ _ => [(resources, field)]
  | best _ _ _ => Test.attributeNeeds
  | id => [(resources, "id")]

/-- A cell as a key: for numeric fields the number that it stands for. -/
def keyCell (numeric : Bool) (c : Cell) : Cell :=
  if numeric then .ofFloat? c.number? else c

def value (db : Database) (r : Row) : SortKey → Cell
  | overlap box =>
      let found := Cell.overlap
        (r.cell "geom_minx", r.cell "geom_miny", r.cell "geom_maxx", r.cell "geom_maxy")
        (.real box.minX, .real box.minY, .real box.maxX, .real box.maxY)
      if found.isNull then .int (-1) else found
  | scalar field numeric _ => keyCell numeric (r.cell field)
  | best field numeric direction =>
      let cells := ((Test.fieldCells db field r).map (keyCell numeric)).filter fun c => !c.isNull
      let chosen :=
        match direction with
        | .ascending => Cell.minimum? cells
        | .descending => Cell.maximum? cells
      chosen.getD .null
  | id => r.cell "id"

/-- The order of two cells of which null comes last. -/
def compareValues (numeric : Bool) (direction : Direction) (a b : Cell) : Ordering :=
  match a.isNull, b.isNull with
  | true, true => .eq
  | true, false => .gt
  | false, true => .lt
  | false, false =>
      let collation : Collation := if numeric then .binary else .noCase
      match direction with
      | .ascending => Cell.compare collation a b
      | .descending => Cell.compare collation b a

def compare (db : Database) (k : SortKey) (a b : Row) : Ordering :=
  let left := k.value db a
  let right := k.value db b
  match k with
  | overlap _ => Cell.compare .binary right left
  | scalar _ numeric direction => compareValues numeric direction left right
  | best _ numeric direction => compareValues numeric direction left right
  | id => Cell.compare .binary left right

end SortKey

/-- The keys of an ordering, the first one counting most. -/
abbrev SortKeys := List SortKey

namespace SortKeys

def fragment (keys : SortKeys) : Fragment :=
  let parts := keys.map SortKey.fragment
  ⟨String.intercalate ", " (parts.map Fragment.sql), parts.flatMap Fragment.params⟩

def needs (keys : SortKeys) : List (String × String) :=
  keys.flatMap SortKey.needs

def compare (db : Database) (a b : Row) : SortKeys → Ordering
  | [] => .eq
  | k :: rest => (k.compare db a b).then (compare db a b rest)

def sort (db : Database) (keys : SortKeys) (rows : List Row) : List Row :=
  rows.mergeSort fun a b => compare db a b keys != .gt

def closing : SortKeys :=
  [.scalar titleField false .ascending, .id]

end SortKeys

namespace Request

/-- The key of one sort wish; relevance without a box is none. -/
def sortKey (schema : Schema) (box : Option Envelope) (wish : SortSpec) :
    Except Error (Option SortKey) :=
  if wish.field == relevance then .ok (box.map .overlap)
  else
    match checkName wish.field with
    | .error e => .error e
    | .ok () =>
        match schema.field? wish.field with
        | none => .error (.invalid (.unknownSortField wish.field))
        | some f =>
            if f.isScalar then .ok (some (.scalar wish.field f.numeric wish.direction))
            else .ok (some (.best wish.field f.numeric wish.direction))

def sortKeysOf (schema : Schema) (box : Option Envelope) :
    List SortSpec → Except Error SortKeys
  | [] => .ok SortKeys.closing
  | wish :: rest =>
      match sortKey schema box wish with
      | .error e => .error e
      | .ok key => (sortKeysOf schema box rest).map (key.toList ++ ·)

/-- The sort keys of a request, which is ordered by relevance if it does not say. -/
def sortKeys (schema : Schema) (r : Request) : Except Error SortKeys :=
  sortKeysOf schema r.box (if r.sorts.isEmpty then [⟨relevance, .descending⟩] else r.sorts)

end Request

end Gazetteer
