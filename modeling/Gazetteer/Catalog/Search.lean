import Gazetteer.Catalog.Hydrate
import Gazetteer.Catalog.Write
import Gazetteer.Config
import Gazetteer.Query.SortKey
/-!
Searching: the resources that match a request, ordered and cut to a page, their number, and the
buckets of each facet.  Free text and box are evaluated once, into the hit set; a facet leaves out
the condition on its own field.
-/

namespace Gazetteer

-- Powers are those of the core library, whichever others are known.
attribute [local instance (high)] instPowNat

/-- A value of a field and the number of resources that have it. -/
structure Bucket where
  value : String
  count : Nat
deriving DecidableEq, Repr

structure Response where
  results : List Resource
  facets : Dict (List Bucket)
  total : Nat
deriving DecidableEq

def Response.empty : Response :=
  ⟨[], .empty, 0⟩

/-- The ids of the rows that pass free text and box, if a request has any. -/
abbrev HitSet := Option (List Cell)

/-- A count from which on there is no limit, and no row is skipped. -/
def unlimited : Nat := 2 ^ (63 : Nat)

def limited {α : Type} (limit : Nat) (items : List α) : List α :=
  if limit < unlimited then items.take limit else items

def skipped {α : Type} (start : Nat) (items : List α) : List α :=
  if start < unlimited then items.drop start else items

namespace Page

def window {α : Type} (p : Page) (items : List α) : List α :=
  limited p.size (skipped p.start items)

end Page

namespace Database

open Layout

def globalIds (request : Request) (db : Database) : Except Fault (List Cell) :=
  let clause := request.globalClause
  match db.need ((resources, "id") :: clause.flatMap Test.needs) with
  | .error fault => .error fault
  | .ok () =>
      (db.table resources).map fun t => (t.rows.filter (clause.holds db)).map fun r => r.cell "id"

def hitSet (request : Request) (db : Database) : Except Fault HitSet :=
  if request.isGlobal then (db.globalIds request).map some else .ok none

/-- The rows that a hit set leaves, each as often as its id is in the set. -/
def hits (hitSet : HitSet) (db : Database) : List Row :=
  match hitSet with
  | none => db.rows resources
  | some ids =>
      let affinity := db.affinity resources "id"
      (db.rows resources).flatMap fun r =>
        (ids.filter fun id => Cell.joins affinity affinity id (r.cell "id")).map fun _ => r

def selected (hitSet : HitSet) (p : Predicate) (db : Database) : List Row :=
  (db.hits hitSet).filter (p.holds db)

def selectionNeeds (hitSet : HitSet) (p : Predicate) : List (String × String) :=
  (if hitSet.isSome then [(resources, "id")] else []) ++ p.needs

/-- The ids of the selected rows in the order of the keys, cut to a page. -/
def pageIds (hitSet : HitSet) (p : Predicate) (keys : SortKeys) (page : Page) (db : Database) :
    Except Fault (List String) :=
  match db.need ((resources, "id") :: (selectionNeeds hitSet p ++ keys.needs)) with
  | .error fault => .error fault
  | .ok () =>
      (page.window (keys.sort db (db.selected hitSet p))).mapM fun r =>
        (r.cell "id").toString? "id"

/-- A value of the facet with the id of a resource that has it. -/
abbrev Occurrence := Cell × Cell

def scalarOccurrences (field : String) (hitSet : HitSet) (p : Predicate) (db : Database) :
    List Occurrence :=
  ((db.selected hitSet p).map fun r => (r.cell field, r.cell "id")).filter fun entry =>
    !entry.1.isNull &&
      !entry.1.equals ((Cell.text "").against (db.affinity resources field))

def repeatableOccurrences (field : String) (hitSet : HitSet) (p : Predicate) (db : Database) :
    List Occurrence :=
  let found := db.selected hitSet p
  ((db.rows attributes).filter fun m =>
    Test.isOneOf (db.affinity attributes "field") [field] (m.cell "field")).flatMap fun m =>
      (found.filter fun r =>
        Cell.joins (db.affinity resources "id") (db.affinity attributes "id") (r.cell "id")
          (m.cell "id")).map fun _ => (m.cell "value", m.cell "id")

/-- The different values, each with the number of different ids that it occurs with. -/
def tally (occurrences : List Occurrence) : List (Cell × Nat) :=
  (Cell.distinct (occurrences.map Prod.fst)).map fun value =>
    let ids := (occurrences.filter fun entry => value.same entry.1).map Prod.snd
    (value, (Cell.distinct (ids.filter fun id => !id.isNull)).length)

/-- The order of the buckets of a timeline: numbers ascending, then what is no number. -/
def compareTimes (a b : Cell × Nat) : Ordering :=
  (SortKey.compareValues true .ascending (SortKey.keyCell true a.1) (SortKey.keyCell true b.1)).then
    (Cell.compare .binary a.1 b.1)

/-- The order of the buckets of other facets: the frequent ones first, then by value. -/
def compareCounts (a b : Cell × Nat) : Ordering :=
  (compareOn Prod.snd b a).then (Cell.compare .binary a.1 b.1)

def facetLimit (config : Config) (spec : FacetSpec) : Nat :=
  let limit := spec.limit.getD config.defaultFacetLimit
  if spec.field == config.timelineField then max limit config.timelineFacetLimit else limit

def facetNeeds (schema : Schema) (field : String) : List (String × String) :=
  if schema.isScalar field then [(resources, field), (resources, "id")] else Test.attributeNeeds

def buckets (schema : Schema) (config : Config) (spec : FacetSpec) (hitSet : HitSet)
    (p : Predicate) (db : Database) : Except Fault (List Bucket) :=
  match db.need (facetNeeds schema spec.field ++ selectionNeeds hitSet p) with
  | .error fault => .error fault
  | .ok () =>
      let occurrences :=
        if schema.isScalar spec.field then db.scalarOccurrences spec.field hitSet p
        else db.repeatableOccurrences spec.field hitSet p
      let order := if spec.field == config.timelineField then compareTimes else compareCounts
      let ordered := (tally occurrences).mergeSort fun a b => order a b != .gt
      (limited (facetLimit config spec) ordered).mapM fun entry =>
        (entry.1.toString? spec.field).map fun value => ⟨value, entry.2⟩

/-- The buckets of a facet of a request; none if they cannot be counted. -/
def facet (schema : Schema) (config : Config) (request : Request) (hitSet : HitSet)
    (spec : FacetSpec) (db : Database) : List Bucket :=
  match request.predicate schema (some spec.field) hitSet.isNone with
  | .error _ => []
  | .ok p =>
      match db.buckets schema config spec hitSet p with
      | .ok found => found
      | .error _ => []

def facets (schema : Schema) (config : Config) (request : Request) (hitSet : HitSet)
    (db : Database) : Dict (List Bucket) :=
  .ofList (request.facets.map fun spec =>
    (spec.field, db.facet schema config request hitSet spec))

def checkNames : List String → Except Error Unit
  | [] => .ok ()
  | name :: rest =>
      match checkName name with
      | .error e => .error e
      | .ok () => checkNames rest

def facetedSearch (schema : Schema) (config : Config) (request : Request) (db : Database) :
    Except Error Response := do
  checkNames (request.facets.map FacetSpec.field)
  let keys ← request.sortKeys schema
  let hitSet ← engineResult (db.hitSet request)
  let p ← request.predicate schema none hitSet.isNone
  let page := request.page.getD ⟨config.defaultPageSize, 0⟩
  let ids ← engineResult (db.pageIds hitSet p keys page)
  let facets := db.facets schema config request hitSet
  let results ← engineResult (db.hydrate ids)
  return ⟨results, facets, (db.selected hitSet p).length⟩

def search (schema : Schema) (config : Config) (request : Request) (db : Database) :
    Except Error Response :=
  db.facetedSearch schema config request.withoutFacets

def distinctValues (schema : Schema) (config : Config) (spec : FacetSpec) (db : Database) :
    Except Error (List Bucket) :=
  match checkName spec.field with
  | .error e => .error e
  | .ok () => engineResult (db.buckets schema config spec none [])

/-- The ids that a hit set would hold, in ascending order. -/
def hitSetIds (request : Request) (db : Database) : Except Fault (List String) :=
  match db.globalIds request with
  | .error fault => .error fault
  | .ok ids => (ids.mapM (Cell.toString? "id")).map fun texts => texts.mergeSort fun a b => a ≤ b

end Database

end Gazetteer
