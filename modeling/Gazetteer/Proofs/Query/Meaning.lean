import Mathlib
import Gazetteer.Proofs.Text.Like
import Gazetteer.Query.Predicate
import Gazetteer.Schema.Aardvark
/-!
What a request asks of a resource, told of its values alone.
-/

namespace Gazetteer

/-- The value of a scalar field, that of the id included. -/
def Resource.value? (r : Resource) (field : String) : Option String :=
  if field = "id" then some r.id else r.scalar? field

/-- Whether a field has a value, be it the only one that it may have or one of many. -/
def Resource.Has (r : Resource) (field value : String) : Prop :=
  if Schema.isScalar .aardvark field = true then r.value? field = some value
  else value ∈ r.values field

namespace Condition

def isBounded (c : Condition) : Bool :=
  c.atLeast.isSome || c.atMost.isSome

/-- A value that is a number within the bounds. -/
def Admits (c : Condition) (value : String) : Prop :=
  ∃ x ∈ (Cell.text value).number?, (∀ bound ∈ c.atLeast, bound ≤ x) ∧ ∀ bound ∈ c.atMost, x ≤ bound

/-- What is asked of a field that has one value at most. -/
def MetByValue (c : Condition) (value : Option String) : Prop :=
  ∃ v ∈ value, (c.any ≠ [] → v ∈ c.any) ∧ (∀ w ∈ c.all, v = w) ∧
    (c.isBounded = true → c.Admits v)

/-- What is asked of a field with any number of values. -/
def MetByValues (c : Condition) (values : List String) : Prop :=
  (c.any ≠ [] → ∃ v ∈ values, v ∈ c.any) ∧ (∀ w ∈ c.all, w ∈ values) ∧
    (c.isBounded = true → ∃ v ∈ values, c.Admits v)

/-- What a condition on a field asks of a resource; an empty one asks nothing. -/
def Met (c : Condition) (field : String) (r : Resource) : Prop :=
  c.isEmpty = false →
    if Schema.isScalar .aardvark field = true then c.MetByValue (r.value? field)
    else c.MetByValues (r.values field)

theorem met_anyOf {field value : String} {r : Resource} :
    (anyOf [value]).Met field r ↔ r.Has field value := by
  have hempty : (anyOf [value]).isEmpty = false := rfl
  simp only [Met, hempty, true_imp_iff, Resource.Has, MetByValue, MetByValues]
  split <;> simp [anyOf, isBounded]

end Condition

namespace Request

/-- What free text and box ask of a resource and its searched text. -/
structure MatchesGlobally (q : Request) (r : Resource) (content : String) : Prop where
  text : ∀ query ∈ q.query, ∀ term ∈ Text.words query, Text.Occurs (Text.lowercase term) content
  box : ∀ box ∈ q.box, ∃ e ∈ r.geometry, e.intersects box = true

/-- What the conditions on fields ask of a resource, one field perhaps left out. -/
def MeetsFilters (q : Request) (omitted : Option String) (r : Resource) : Prop :=
  ∀ field condition, q.filters.get? field = some condition → omitted ≠ some field →
    condition.Met field r

/-- What a request asks of a resource and its searched text. -/
structure Matches (q : Request) (r : Resource) (content : String) : Prop where
  globally : q.MatchesGlobally r content
  filters : ∀ field condition, q.filters.get? field = some condition → condition.Met field r

end Request

end Gazetteer
