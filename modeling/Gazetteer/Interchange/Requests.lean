import Gazetteer.Interchange.Resources
import Gazetteer.Request
/-! Search requests as interchange values. -/

namespace Gazetteer

open Json.Decode

namespace Condition

def toJson (c : Condition) : Json :=
  .ofFields [("any", .ofTexts c.any), ("all", .ofTexts c.all),
    ("gte", .ofOption .float c.atLeast), ("lte", .ofOption .float c.atMost)]

def ofJson? (j : Json) : Option Condition := do
  let fs ← fields ["any", "all", "gte", "lte"] j
  let any ← optional fs "any" [] (listOf text)
  let all ← optional fs "all" [] (listOf text)
  let atLeast ← optional fs "gte" none (nullable measure)
  let atMost ← optional fs "lte" none (nullable measure)
  return ⟨any, all, atLeast, atMost⟩

end Condition

namespace Direction

def names : List (String × Direction) :=
  [("asc", .ascending), ("desc", .descending)]

def toJson : Direction → Json
  | .ascending => .text "asc"
  | .descending => .text "desc"

end Direction

namespace SortSpec

def toJson (s : SortSpec) : Json :=
  .ofFields [("field", .text s.field), ("dir", s.direction.toJson)]

def ofJson? (j : Json) : Option SortSpec := do
  let fs ← fields ["field", "dir"] j
  let field ← required fs "field" text
  let direction ← optional fs "dir" .ascending (choice Direction.names)
  return ⟨field, direction⟩

end SortSpec

namespace Page

def toJson (p : Page) : Json :=
  .ofFields [("size", .int p.size), ("from", .int p.start)]

def ofJson? (j : Json) : Option Page := do
  let fs ← fields ["size", "from"] j
  let size ← required fs "size" count
  let start ← optional fs "from" 0 count
  return ⟨size, start⟩

end Page

namespace FacetSpec

def toJson (f : FacetSpec) : Json :=
  .ofFields [("field", .text f.field), ("limit", .ofOption (fun n : Nat => .int n) f.limit)]

def ofJson? (j : Json) : Option FacetSpec := do
  let fs ← fields ["field", "limit"] j
  let field ← required fs "field" text
  let limit ← optional fs "limit" none (nullable count)
  return ⟨field, limit⟩

end FacetSpec

namespace Request

def boxJson (box : Envelope) : Json :=
  .ofFields [("minX", .float box.minX), ("minY", .float box.minY), ("maxX", .float box.maxX),
    ("maxY", .float box.maxY)]

def boxOfJson? (j : Json) : Option Envelope :=
  Envelope.ofFieldsNamed? "minX" "minY" "maxX" "maxY" j

def toJson (r : Request) : Json :=
  .ofFields [
    ("q", .ofOption .text r.query),
    ("filters", .record (r.filters.entries.map fun entry => (entry.1, entry.2.toJson))),
    ("sort", .list (r.sorts.map SortSpec.toJson)),
    ("page", .ofOption Page.toJson r.page),
    ("facets", .list (r.facets.map FacetSpec.toJson)),
    ("bbox", .ofOption boxJson r.box)]

def ofJson? (j : Json) : Option Request := do
  let fs ← fields ["q", "filters", "sort", "page", "facets", "bbox"] j
  let query ← optional fs "q" none (nullable text)
  let filters ← optional fs "filters" .empty (dictOf Condition.ofJson?)
  let sorts ← optional fs "sort" [] (listOf SortSpec.ofJson?)
  let page ← optional fs "page" none (nullable Page.ofJson?)
  let facets ← optional fs "facets" [] (listOf FacetSpec.ofJson?)
  let box ← optional fs "bbox" none (nullable boxOfJson?)
  return ⟨query, filters, sorts, page, facets, box⟩

/-- One step in the building of a request: the name of the part, and what it is to be. -/
def buildStep? (r : Request) (call : List Json) : Option Request :=
  match call with
  | [.text "query", q] => (text q).map r.withQuery
  | [.text "any", field, values] => do
      return r.withFilter (← text field) (.anyOf (← listOf text values))
  | [.text "all", field, values] => do
      return r.withFilter (← text field) (.allOf (← listOf text values))
  | [.text "range", field, low, high] => do
      return r.withFilter (← text field)
        (.range (← nullable measure low) (← nullable measure high))
  | [.text "bbox", a, b, c, d] => do
      return r.withBox ⟨← measure a, ← measure b, ← measure c, ← measure d⟩
  | [.text "sort", field, direction] => do
      return r.withSort (← text field) (← choice Direction.names direction)
  | [.text "page", size, start] => do return r.withPage (← count size) (← count start)
  | [.text "facet", field, limit] => do
      return r.withFacet (← text field) (← nullable count limit)
  | _ => none

def build? (j : Json) : Option Request :=
  match j with
  | .list calls => calls.foldlM (fun r call =>
      match call with
      | .list parts => r.buildStep? parts
      | _ => none) everything
  | _ => none

end Request

end Gazetteer
