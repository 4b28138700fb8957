import Gazetteer.Json.Tree
import Gazetteer.Json.Value
/-!
Values from syntax trees.  Of two fields with one name the later one stays; a text with half of a
surrogate pair, a number too large for a double and nesting deeper than 127 have no value.
-/

namespace Gazetteer.Json

-- Powers are those of the core library, whichever others are known.
attribute [local instance (high)] instPowNat

def wordLimit : Nat := 2 ^ (64 : Nat)

/-- The leading digits that still fit sixty-four bits, and how many digits were left out. -/
def leadingDigits (value : Nat) : List Char → Nat × Nat
  | [] => (value, 0)
  | c :: cs =>
      let next := 10 * value + (c.toNat - '0'.toNat)
      if next < wordLimit then leadingDigits next cs else (value, cs.length + 1)

def powerOfTen (n : Nat) : Float :=
  Number.ofRatio false (10 ^ n) 1

/-- Division by `10 ^ n`, in steps of `10 ^ 308` as long as the exponent is larger than that. -/
def divideByTens (x : Float) (n : Nat) : Float :=
  if n ≤ 308 then x / powerOfTen n
  else if x == 0 then x
  else divideByTens (x / powerOfTen 308) (n - 308)
termination_by n

/-- A significand of sixty-four bits times a power of ten, in floating point: nothing if it is too
large. -/
def scaledFloat? (negative : Bool) (significand : Nat) (exponent : Int) : Option Float :=
  let start := Number.ofInt significand
  let size? : Option Float :=
    if exponent < 0 then some (divideByTens start (min (-exponent).toNat 4000))
    else if exponent ≤ 308 then
      let x := start * powerOfTen exponent.toNat
      if Number.isFinite x then some x else none
    else if significand = 0 then some start
    else none
  size?.map fun size => if negative then -size else size

/-- The significand of a numeral and its power of ten before the exponent is counted. -/
def Figures.significand (f : Figures) : Nat × Int :=
  let (value, dropped) := leadingDigits 0 f.before
  match f.after with
  | none => (value, dropped)
  | some after =>
      let (value, rest) := leadingDigits value after
      (value, (dropped : Int) - (after.length - rest : Nat))

/-- A numeral without point and exponent that fits sixty-four bits is a whole number, except for a
zero with a minus sign; all others are doubles. -/
def Figures.value? (f : Figures) : Option Json :=
  let (significand, place) := f.significand
  match f.after, f.power with
  | none, none =>
      if place ≠ 0 then (scaledFloat? f.negative significand place).map .float
      else if !f.negative then some (.int significand)
      else if significand = 0 ∨ 2 ^ (63 : Nat) < significand then
        some (.float (-(Number.ofInt significand)))
      else some (.int (-(significand : Int)))
  | _, none => (scaledFloat? f.negative significand place).map .float
  | _, some (down, digits) =>
      let size : Int := Number.digitsValue digits
      (scaledFloat? f.negative significand (if down then place - size else place + size)).map
        .float

mutual

/-- The value of a tree with at most `depth` levels of lists and records. -/
def Tree.value? (depth : Nat) : Tree → Option Json
  | .null => some .null
  | .bool value => some (.bool value)
  | .number figures => figures.value?
  | .text value => value.map .text
  | .list items =>
      match depth with
      | 0 => none
      | depth + 1 => (Tree.values? depth items).map .list
  | .record fields =>
      match depth with
      | 0 => none
      | depth + 1 => (Tree.entries? depth fields).map ofFields

def Tree.values? (depth : Nat) : List Tree → Option (List Json)
  | [] => some []
  | item :: items =>
      (Tree.value? depth item).bind fun value => (Tree.values? depth items).map (value :: ·)

def Tree.entries? (depth : Nat) :
    List (Option String × Tree) → Option (List (String × Json))
  | [] => some []
  | (name, item) :: fields =>
      name.bind fun name => (Tree.value? depth item).bind fun value =>
        (Tree.entries? depth fields).map ((name, value) :: ·)

end

def depthLimit : Nat := 127

def ofText? (s : String) : Option Json :=
  (Tree.ofText? s).bind (Tree.value? depthLimit)

end Gazetteer.Json
