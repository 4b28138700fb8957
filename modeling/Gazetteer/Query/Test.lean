import Gazetteer.Query.Fragment
import Gazetteer.Store.Backfill
/-!
Tests on stored resources: the text of each as a query, the columns that it reads, and which rows
pass it.
-/

namespace Gazetteer

inductive Test
  /-- The column holds one of the values. -/
  | scalarIn (field : String) (values : List String)
  | scalarIs (field value : String)
  /-- The number in the column is at least the bound. -/
  | scalarFrom (field : String) (bound : Float)
  | scalarTo (field : String) (bound : Float)
  /-- The field has one of the values. -/
  | hasAny (field : String) (values : List String)
  /-- The field has every one of the values. -/
  | hasAll (field : String) (values : List String)
  /-- One value of the field is a number within the bounds. -/
  | hasWithin (field : String) (atLeast atMost : Option Float)
  /-- The searched text contains every one of the terms. -/
  | mentions (terms : List String)
  /-- The envelope and the box share a point. -/
  | meets (box : Envelope)
deriving DecidableEq

namespace Test

open Layout

def someValue : String :=
  "EXISTS (SELECT 1 FROM resources_mv m WHERE m.id = r.id AND m.field = ?"

def boundText (bound : Option Float) (relation : String) : String :=
  match bound with
  | some _ => " AND try_num(m.value) " ++ relation ++ " ?"
  | none => ""

def sql : Test → String
  | scalarIn field values =>
      scalarColumn field ++ " IN (" ++ Fragment.placeholders values.length ++ ")"
  | scalarIs field _ => scalarColumn field ++ " = ?"
  | scalarFrom field _ => "try_num(" ++ scalarColumn field ++ ") >= ?"
  | scalarTo field _ => "try_num(" ++ scalarColumn field ++ ") <= ?"
  | hasAny _ values =>
      someValue ++ " AND m.value IN (" ++ Fragment.placeholders values.length ++ "))"
  | hasAll _ values =>
      "(SELECT COUNT(DISTINCT m.value) FROM resources_mv m WHERE m.id = r.id AND m.field = ?" ++
        " AND m.value IN (" ++ Fragment.placeholders values.length ++ ")) = ?"
  | hasWithin _ atLeast atMost =>
      someValue ++ " AND try_num(m.value) IS NOT NULL" ++ boundText atLeast ">=" ++
        boundText atMost "<=" ++ ")"
  | mentions terms =>
      "EXISTS (SELECT 1 FROM resources_search s WHERE s.id = r.id AND " ++
        String.intercalate " AND " (terms.map fun _ => "s.content LIKE ? ESCAPE '\\'") ++ ")"
  | meets _ =>
      "r.geom_minx IS NOT NULL AND r.geom_minx <= ? AND r.geom_maxx >= ?" ++
        " AND r.geom_miny <= ? AND r.geom_maxy >= ?"

def pattern (term : String) : String :=
  String.ofList (Text.containing term.toList)

def params : Test → List Cell
  | scalarIn _ values => values.map .text
  | scalarIs _ value => [.text value]
  | scalarFrom _ bound => [.real bound]
  | scalarTo _ bound => [.real bound]
  | hasAny field values => .text field :: values.map .text
  | hasAll field values => .text field :: (values.map .text ++ [.int values.length])
  | hasWithin field atLeast atMost =>
      .text field :: (atLeast.toList.map .real ++ atMost.toList.map .real)
  | mentions terms => terms.map fun term => .text (pattern term)
  | meets box => [.real box.maxX, .real box.minX, .real box.maxY, .real box.minY]

def fragment (t : Test) : Fragment :=
  ⟨t.sql, t.params⟩

def attributeNeeds : List (String × String) :=
  [(attributes, "id"), (resources, "id"), (attributes, "field"), (attributes, "value")]

def needs : Test → List (String × String)
  | scalarIn field _ => [(resources, field)]
  | scalarIs field _ => [(resources, field)]
  | scalarFrom field _ => [(resources, field)]
  | scalarTo field _ => [(resources, field)]
  | hasAny _ _ => attributeNeeds
  | hasAll _ _ => attributeNeeds
  | hasWithin _ _ _ => attributeNeeds
  | mentions _ => [(searchTexts, "id"), (resources, "id"), (searchTexts, "content")]
  | meets _ => geometryColumns.map (resources, ·)

def isOneOf (affinity : Affinity) (values : List String) (c : Cell) : Bool :=
  values.any fun value => c.equals ((Cell.text value).against affinity)

def isFrom (bound : Float) (c : Cell) : Bool :=
  match c.number? with
  | some x => (Cell.ofFloat? (some bound)).atMost (.real x)
  | none => false

def isTo (bound : Float) (c : Cell) : Bool :=
  match c.number? with
  | some x => (Cell.real x).atMost (.ofFloat? (some bound))
  | none => false

def fieldCells (db : Database) (field : String) (r : Row) : List Cell :=
  let affinity := db.affinity attributes "field"
  ((db.belonging attributes r).filter fun m => isOneOf affinity [field] (m.cell "field")).map
    fun m => m.cell "value"

def contentCells (db : Database) (r : Row) : List Cell :=
  (db.belonging searchTexts r).map fun s => s.cell "content"

def containsTerm (c : Cell) (term : String) : Bool :=
  match c.likeChars? with
  | some content => Text.isLike (pattern term).toList content
  | none => false

/-- A bound as it is compared with a column of the envelope. -/
def edge (db : Database) (column : String) (bound : Float) : Cell :=
  (Cell.ofFloat? (some bound)).against (db.affinity resources column)

def holds (db : Database) (r : Row) : Test → Bool
  | scalarIn field values => isOneOf (db.affinity resources field) values (r.cell field)
  | scalarIs field value => isOneOf (db.affinity resources field) [value] (r.cell field)
  | scalarFrom field bound => isFrom bound (r.cell field)
  | scalarTo field bound => isTo bound (r.cell field)
  | hasAny field values =>
      (fieldCells db field r).any (isOneOf (db.affinity attributes "value") values)
  | hasAll field values =>
      let found := (fieldCells db field r).filter
        (isOneOf (db.affinity attributes "value") values)
      (Cell.distinct found).length == values.length
  | hasWithin field atLeast atMost =>
      (fieldCells db field r).any fun c =>
        c.number?.isSome && atLeast.toList.all (isFrom · c) && atMost.toList.all (isTo · c)
  | mentions terms => (contentCells db r).any fun c => terms.all (containsTerm c)
  | meets box =>
      (r.cell "geom_minx").atMost (edge db "geom_minx" box.maxX) &&
        (edge db "geom_maxx" box.minX).atMost (r.cell "geom_maxx") &&
        (r.cell "geom_miny").atMost (edge db "geom_miny" box.maxY) &&
        (edge db "geom_maxy" box.minY).atMost (r.cell "geom_maxy")

end Test

end Gazetteer
