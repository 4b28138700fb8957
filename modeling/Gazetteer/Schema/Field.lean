/-! The fields of resources: single-valued ones in a closed set, and repeatable ones. -/

namespace Gazetteer

inductive FieldKind
  | scalar
  | repeatable
deriving DecidableEq, Repr

structure Field where
  name : String
  kind : FieldKind
  /-- Sorted and compared with bounds as a number. -/
  numeric : Bool
  /-- Takes part in the searched text. -/
  searchable : Bool
deriving DecidableEq, Repr

/-- The declared fields.  A name that no field has is repeatable. -/
structure Schema where
  fields : List Field
deriving DecidableEq, Repr

namespace Field

def isScalar (f : Field) : Bool :=
  f.kind == .scalar

def scalar (name : String) : Field :=
  ⟨name, .scalar, false, false⟩

def repeatable (name : String) : Field :=
  ⟨name, .repeatable, false, false⟩

def withNumbers (f : Field) : Field :=
  ⟨f.name, f.kind, true, f.searchable⟩

def inSearch (f : Field) : Field :=
  ⟨f.name, f.kind, f.numeric, true⟩

end Field

end Gazetteer
