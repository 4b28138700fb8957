import Gazetteer.Number.Binary64
/-!
Axis-parallel boxes over any ordered arithmetic, and how much two of them overlap.  Boxes over
doubles are the envelopes of resources; over an exact field the same definitions obey the laws of
plane geometry.
-/

namespace Gazetteer

/-- The arithmetic that areas need.  `larger` and `smaller` pass over an operand that is no
number. -/
class Coordinate (α : Type) extends Add α, Sub α, Mul α, Div α where
  zero : α
  one : α
  atMost : α → α → Bool
  larger : α → α → α
  smaller : α → α → α

namespace Coordinate

/-- The larger of two doubles, and the other one if one is a NaN. -/
def largerFloat (a b : Float) : Float :=
  if a.isNaN then b
  else if b.isNaN then a
  else if a < b then b
  else a

def smallerFloat (a b : Float) : Float :=
  if a.isNaN then b
  else if b.isNaN then a
  else if b < a then b
  else a

instance : Coordinate Float where
  zero := 0
  one := 1
  atMost a b := a ≤ b
  larger := largerFloat
  smaller := smallerFloat

end Coordinate

structure Box (α : Type) where
  minX : α
  minY : α
  maxX : α
  maxY : α
deriving DecidableEq, Repr

namespace Box

open Coordinate

variable {α : Type} [Coordinate α]

/-- The length of the side from `low` to `high`, zero for an inverted side. -/
def side (low high : α) : α :=
  let length := high - low
  if atMost zero length && !atMost length zero then length else zero

def area (b : Box α) : α :=
  side b.minX b.maxX * side b.minY b.maxY

/-- Whether the two boxes share a point; touching edges do. -/
def intersects (a b : Box α) : Bool :=
  atMost a.minX b.maxX && atMost b.minX a.maxX && atMost a.minY b.maxY && atMost b.minY a.maxY

def intersection (a b : Box α) : Option (Box α) :=
  if a.intersects b then
    some ⟨larger a.minX b.minX, larger a.minY b.minY, smaller a.maxX b.maxX,
      smaller a.maxY b.maxY⟩
  else none

/-- A value brought into the range from zero to one; what is no number stays so. -/
def clampUnit (x : α) : α :=
  if !atMost zero x && atMost x zero then zero
  else if !atMost x one && atMost one x then one
  else x

/-- The area of the intersection over that of the union, zero for boxes without a common area. -/
def overlap (a b : Box α) : α :=
  match a.intersection b with
  | none => zero
  | some common =>
      let shared := common.area
      let union := a.area + b.area - shared
      if atMost union zero then zero else clampUnit (shared / union)

end Box

/-- The extent of a resource in degrees of longitude and latitude. -/
abbrev Envelope := Box Float

end Gazetteer
