import Gazetteer.Json.Decode
import Gazetteer.Resource
import Gazetteer.Schema.Field
/-! Resources, distributions, envelopes and schemas as interchange values. -/

namespace Gazetteer

open Json.Decode

/-- A measure; one that is not finite is written as a word. -/
def Json.ofMeasure (x : Float) : Json :=
  if Number.isFinite x then .float x else .text (Number.Layout.plain.text x)

namespace Envelope

def toJson (e : Envelope) : Json :=
  .ofFields [("min_x", .float e.minX), ("min_y", .float e.minY), ("max_x", .float e.maxX),
    ("max_y", .float e.maxY)]

def ofFieldsNamed? (minX minY maxX maxY : String) (j : Json) : Option Envelope := do
  let fs ← fields [minX, minY, maxX, maxY] j
  let a ← required fs minX measure
  let b ← required fs minY measure
  let c ← required fs maxX measure
  let d ← required fs maxY measure
  return ⟨a, b, c, d⟩

def ofJson? (j : Json) : Option Envelope :=
  ofFieldsNamed? "min_x" "min_y" "max_x" "max_y" j

end Envelope

namespace Distribution

def toJson (d : Distribution) : Json :=
  .ofFields ([("relation_key", .text d.relation), ("url", .text d.url)] ++
    (d.label.map fun label => ("label", .text label)).toList)

def ofJson? (j : Json) : Option Distribution := do
  let fs ← fields ["relation_key", "url", "label"] j
  let relation ← required fs "relation_key" text
  let url ← required fs "url" text
  let label ← optional fs "label" none (nullable text)
  return ⟨relation, url, label⟩

end Distribution

namespace Resource

def toJson (r : Resource) : Json :=
  .ofFields [
    ("id", .text r.id),
    ("scalars", .record (r.scalars.entries.map fun entry => (entry.1, .text entry.2))),
    ("repeatables", .record (r.repeatables.entries.map fun entry => (entry.1, .ofTexts entry.2))),
    ("distributions", .list (r.distributions.map Distribution.toJson)),
    ("geometry", .ofOption Envelope.toJson r.geometry),
    ("thumbnail", .ofOption .text r.thumbnail)]

def ofJson? (j : Json) : Option Resource := do
  let fs ← fields
    ["id", "scalars", "repeatables", "distributions", "geometry", "thumbnail"] j
  let id ← required fs "id" text
  let scalars ← required fs "scalars" (dictOf text)
  let repeatables ← required fs "repeatables" (dictOf (listOf text))
  let distributions ← optional fs "distributions" [] (listOf Distribution.ofJson?)
  let geometry ← optional fs "geometry" none (nullable Envelope.ofJson?)
  let thumbnail ← optional fs "thumbnail" none (nullable text)
  return ⟨id, scalars, repeatables, distributions, geometry, thumbnail⟩

end Resource

namespace Field

def kindNames : List (String × FieldKind) :=
  [("Scalar", .scalar), ("Repeatable", .repeatable)]

def toJson (f : Field) : Json :=
  .ofFields [
    ("name", .text f.name),
    ("kind", .text (if f.isScalar then "Scalar" else "Repeatable")),
    ("numeric", .bool f.numeric),
    ("searchable", .bool f.searchable)]

def ofJson? (j : Json) : Option Field := do
  let fs ← fields ["name", "kind", "numeric", "searchable"] j
  let name ← required fs "name" text
  let kind ← required fs "kind" (choice kindNames)
  let numeric ← required fs "numeric" bool
  let searchable ← required fs "searchable" bool
  return ⟨name, kind, numeric, searchable⟩

end Field

def Schema.ofJson? (j : Json) : Option Schema :=
  (listOf Field.ofJson? j).map Schema.mk

end Gazetteer
