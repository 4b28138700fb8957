import Gazetteer.Number.Binary64
/-!
Decimal numerals: an optional sign, digits with an optional point among or beside them, and an
optional exponent.  A numeral is read to its exact value first, and then to the nearest double.
-/

namespace Gazetteer.Number

-- Powers are those of the core library, whichever others are known.
attribute [local instance (high)] instPowNat

/-- The exact value `digits · 10 ^ exponent` of a numeral, with its sign.  A numeral is `whole`
if it is written without a point and without an exponent. -/
structure Numeral where
  negative : Bool
  digits : Nat
  exponent : Int
  whole : Bool
deriving DecidableEq, Repr

def digitsValue (digits : List Char) : Nat :=
  digits.foldl (fun value c => 10 * value + (c.toNat - '0'.toNat)) 0

def takeSign : List Char → Bool × List Char
  | '-' :: cs => (true, cs)
  | '+' :: cs => (false, cs)
  | cs => (false, cs)

/-- The exponent that the text after the digits stands for: the empty text for none. -/
def exponent? : List Char → Option Int
  | [] => some 0
  | c :: cs =>
      if c = 'e' ∨ c = 'E' then
        let (negative, digits) := takeSign cs
        if digits.isEmpty || !digits.all Char.isDigit then none
        else if negative then some (-(digitsValue digits : Int))
        else some (digitsValue digits)
      else none

def numeral? (cs : List Char) : Option Numeral :=
  let (negative, body) := takeSign cs
  let before := body.takeWhile Char.isDigit
  let tail := body.dropWhile Char.isDigit
  let (pointed, after, tail) :=
    match tail with
    | '.' :: rest => (true, rest.takeWhile Char.isDigit, rest.dropWhile Char.isDigit)
    | rest => (false, [], rest)
  if before.isEmpty && after.isEmpty then none
  else
    (exponent? tail).map fun e =>
      ⟨negative, digitsValue (before ++ after), e - after.length, !pointed && tail.isEmpty⟩

def decimalLength (n : Nat) : Nat :=
  (Nat.toDigits 10 n).length

/-- The double nearest to the numeral.  Values far outside the range of doubles are told by their
size, before any large power of ten is formed. -/
def Numeral.toFloat (n : Numeral) : Float :=
  let top := n.exponent + decimalLength n.digits
  if n.digits = 0 then ofMagnitude n.negative 0
  else if top > 400 then ofMagnitude n.negative infinityBits
  else if top < -400 then ofMagnitude n.negative 0
  else if 0 ≤ n.exponent then ofRatio n.negative (n.digits * 10 ^ n.exponent.toNat) 1
  else ofRatio n.negative n.digits (10 ^ (-n.exponent).toNat)

/-- The finite double that a text stands for as a whole. -/
def finite? (cs : List Char) : Option Float :=
  (numeral? cs).bind fun n =>
    let x := n.toFloat
    if isFinite x then some x else none

end Gazetteer.Number
