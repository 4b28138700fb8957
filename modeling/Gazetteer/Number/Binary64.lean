/-!
Binary64 numbers as exact rationals: what a double stands for, and the double nearest to a
quotient of natural numbers.
-/

namespace Gazetteer.Number

-- Powers are those of the core library, whichever others are known.
attribute [local instance (high)] instPowNat

/-- A finite double: `significand · 2 ^ exponent`, with its sign. -/
structure Dyadic where
  negative : Bool
  significand : Nat
  exponent : Int
deriving DecidableEq, Repr

def signBit : Nat := 2 ^ (63 : Nat)

def infinityBits : Nat := 2047 * 2 ^ (52 : Nat)

/-- The value of a finite double; nothing for an infinity or a NaN. -/
def dyadic? (x : Float) : Option Dyadic :=
  let bits := x.toBits.toNat
  let magnitude := bits % signBit
  let field : Nat := magnitude / 2 ^ (52 : Nat)
  let fraction : Nat := magnitude % 2 ^ (52 : Nat)
  if magnitude ≥ infinityBits then none
  else if field = 0 then some ⟨bits ≥ signBit, fraction, -1074⟩
  else some ⟨bits ≥ signBit, fraction + 2 ^ (52 : Nat), (field : Int) - 1075⟩

def isFinite (x : Float) : Bool :=
  (dyadic? x).isSome

/-- The value times `2 ^ 1074`, which is whole for every finite double.  An infinity lies beyond
all of them on its side. -/
def scaled (x : Float) : Int :=
  match dyadic? x with
  | some d =>
      let size : Int := d.significand * 2 ^ (d.exponent + 1074).toNat
      if d.negative then -size else size
  | none => if x.toBits.toNat ≥ signBit then -(2 ^ (2200 : Nat)) else 2 ^ (2200 : Nat)

/-- The quotient rounded to a whole number, a half to the even neighbour. -/
def roundHalfEven (num den : Nat) : Nat :=
  let quotient := num / den
  let rest := num % den
  if 2 * rest < den then quotient
  else if den < 2 * rest then quotient + 1
  else quotient + quotient % 2

/-- `num / den` divided by `2 ^ exponent`, as a quotient of natural numbers. -/
def unscale (num den : Nat) (exponent : Int) : Nat × Nat :=
  if 0 ≤ exponent then (num, den * 2 ^ exponent.toNat)
  else (num * 2 ^ (-exponent).toNat, den)

/-- The exponent of the last place of the doubles next to `num / den`: it leaves a significand of
53 bits, or fewer below the smallest normal number. -/
def lastPlace (num den : Nat) : Int :=
  let low : Int := (num.log2 : Int) - den.log2 - 53
  let (n, d) := unscale num den low
  max (if n / d < 2 ^ (53 : Nat) then low else low + 1) (-1074)

/-- The double with the given sign and the bit pattern of its magnitude. -/
def ofMagnitude (negative : Bool) (bits : Nat) : Float :=
  Float.ofBits (UInt64.ofNat ((if negative then signBit else 0) + bits))

/-- The double nearest to `num / den`, a half to the even neighbour, and an infinity from the
middle between the largest double and `2 ^ 1024` on. -/
def ofRatio (negative : Bool) (num den : Nat) : Float :=
  if num = 0 then ofMagnitude negative 0
  else
    let place := lastPlace num den
    let (n, d) := unscale num den place
    let bits := (place + 1074).toNat * 2 ^ (52 : Nat) + roundHalfEven n d
    ofMagnitude negative (min bits infinityBits)

def ofInt (n : Int) : Float :=
  ofRatio (n < 0) n.natAbs 1

def whole? (x : Float) : Option Int :=
  match dyadic? x with
  | none => none
  | some d =>
      let signed (n : Nat) : Int := if d.negative then -n else n
      if 0 ≤ d.exponent then some (signed (d.significand * 2 ^ d.exponent.toNat))
      else
        let unit := 2 ^ (-d.exponent).toNat
        if d.significand % unit = 0 then some (signed (d.significand / unit)) else none

def isNegative (x : Float) : Bool :=
  x.toBits.toNat ≥ signBit

end Gazetteer.Number
