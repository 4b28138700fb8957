import Gazetteer.Geometry.Box
import Gazetteer.Dict
import Gazetteer.Text.Blank
/-!
Search requests: free text, a box, conditions on fields, sort keys, a page and the facets to count.
-/

namespace Gazetteer

/-- A condition on one field, all of whose parts must hold. -/
structure Condition where
  /-- At least one of these values. -/
  any : List String
  /-- Every one of these values. -/
  all : List String
  atLeast : Option Float
  atMost : Option Float
deriving DecidableEq, Inhabited

inductive Direction
  | ascending
  | descending
deriving DecidableEq, Repr

structure SortSpec where
  field : String
  direction : Direction
deriving DecidableEq, Repr

structure Page where
  size : Nat
  start : Nat
deriving DecidableEq, Repr

structure FacetSpec where
  field : String
  limit : Option Nat
deriving DecidableEq, Repr

structure Request where
  query : Option String
  filters : Dict Condition
  sorts : List SortSpec
  page : Option Page
  facets : List FacetSpec
  box : Option Envelope
deriving DecidableEq

/-- The name of the sort key by which the best matches come first. -/
def relevance : String := "relevance"

namespace Condition

def anyOf (values : List String) : Condition :=
  ⟨values, [], none, none⟩

def allOf (values : List String) : Condition :=
  ⟨[], values, none, none⟩

def range (atLeast atMost : Option Float) : Condition :=
  ⟨[], [], atLeast, atMost⟩

def isEmpty (c : Condition) : Bool :=
  c.any.isEmpty && c.all.isEmpty && c.atLeast.isNone && c.atMost.isNone

end Condition

namespace Request

def everything : Request :=
  ⟨none, .empty, [], none, [], none⟩

instance : Inhabited Request :=
  ⟨everything⟩

/-- The free text without blanks at its ends, if anything is left of it. -/
def textQuery? (r : Request) : Option String :=
  (r.query.map Text.trim).filter fun q => !q.isEmpty

/-- Whether free text or a box restricts results and facets alike. -/
def isGlobal (r : Request) : Bool :=
  r.textQuery?.isSome || r.box.isSome

def withQuery (r : Request) (query : String) : Request :=
  { r with query := some query }

def withFilter (r : Request) (field : String) (condition : Condition) : Request :=
  { r with filters := r.filters.insert field condition }

def withBox (r : Request) (box : Envelope) : Request :=
  { r with box := some box }

def withSort (r : Request) (field : String) (direction : Direction) : Request :=
  { r with sorts := r.sorts ++ [⟨field, direction⟩] }

def withPage (r : Request) (size start : Nat) : Request :=
  { r with page := some ⟨size, start⟩ }

def withFacet (r : Request) (field : String) (limit : Option Nat) : Request :=
  { r with facets := r.facets ++ [⟨field, limit⟩] }

def withoutFacets (r : Request) : Request :=
  { r with facets := [] }

end Request

end Gazetteer
