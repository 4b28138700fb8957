import Gazetteer.Dict
import Gazetteer.Geometry.Box
/-! Metadata records of geospatial resources, and the places where a resource can be had. -/

namespace Gazetteer

/-- One access point of a resource. -/
structure Distribution where
  relation : String
  url : String
  label : Option String
deriving DecidableEq, Repr, Inhabited

structure Resource where
  id : String
  /-- Single-valued fields other than `id`. -/
  scalars : Dict String
  repeatables : Dict (List String)
  /-- Filled in on reading; a write takes its distributions apart from the resource. -/
  distributions : List Distribution
  /-- Derived from the box text on writing, filled in on reading. -/
  geometry : Option Envelope
  /-- The address of the cached thumbnail, filled in on reading. -/
  thumbnail : Option String
deriving DecidableEq, Inhabited

def titleField : String := "dct_title_s"

def boxField : String := "dcat_bbox"

def referencesField : String := "dct_references_s"

namespace Resource

def ofId (id : String) : Resource :=
  ⟨id, .empty, .empty, [], none, none⟩

def scalar? (r : Resource) (field : String) : Option String :=
  r.scalars.get? field

def values (r : Resource) (field : String) : List String :=
  (r.repeatables.get? field).getD []

def title? (r : Resource) : Option String :=
  r.scalar? titleField

def boxText? (r : Resource) : Option String :=
  r.scalar? boxField

def setScalar (r : Resource) (field value : String) : Resource :=
  { r with scalars := r.scalars.insert field value }

def setValues (r : Resource) (field : String) (values : List String) : Resource :=
  { r with repeatables := r.repeatables.insert field values }

end Resource

end Gazetteer
