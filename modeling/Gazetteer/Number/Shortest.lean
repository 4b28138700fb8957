import Gazetteer.Number.Numeral
/-!
The fewest decimal digits that read back as a given double, and the ways of writing them down.
-/

namespace Gazetteer.Number

-- Powers are those of the core library, whichever others are known.
attribute [local instance (high)] instPowNat

/-- The decimal `digits · 10 ^ exponent`. -/
structure Decimal where
  digits : Nat
  exponent : Int
deriving DecidableEq, Repr

/-- Which of two equally near decimals to take: the one with the even last digit, or the larger. -/
inductive Tie
  | even
  | up
deriving DecidableEq, Repr

def Decimal.toFloat (d : Decimal) : Float :=
  Numeral.toFloat ⟨false, d.digits, d.exponent, false⟩

/-- `num / den` without its power of ten: a quotient by `10 ^ exponent`. -/
def shiftTens (num den : Nat) (exponent : Int) : Nat × Nat :=
  if 0 ≤ exponent then (num, den * 10 ^ exponent.toNat)
  else (num * 10 ^ (-exponent).toNat, den)

/-- The decimals of last place `10 ^ place` on both sides of `num / den`, the nearer one first. -/
def neighbours (tie : Tie) (num den : Nat) (place : Int) : List Decimal :=
  let (n, d) := shiftTens num den place
  let low := n / d
  let rest := n % d
  let downFirst : Bool :=
    if 2 * rest < d then true
    else if d < 2 * rest then false
    else tie == .even && low % 2 == 0
  if downFirst then [⟨low, place⟩, ⟨low + 1, place⟩] else [⟨low + 1, place⟩, ⟨low, place⟩]

/-- The least `p` with `num / den < 10 ^ p`, for a quotient that is no negative power of ten. -/
def pointPosition (num den : Nat) : Int :=
  if den ≤ num then decimalLength (num / den)
  else 1 - (decimalLength (den / num) : Int)

def Dyadic.ratio (d : Dyadic) : Nat × Nat :=
  if 0 ≤ d.exponent then (d.significand * 2 ^ d.exponent.toNat, 1)
  else (d.significand, 2 ^ (-d.exponent).toNat)

def Dyadic.exact (d : Dyadic) : Decimal :=
  if 0 ≤ d.exponent then ⟨d.significand * 2 ^ d.exponent.toNat, 0⟩
  else ⟨d.significand * 5 ^ (-d.exponent).toNat, d.exponent⟩

/-- Among the decimals with 1, 2, … 17 digits the first that reads back as the magnitude of `x`,
and all digits if none does. -/
def shortest (tie : Tie) (d : Dyadic) : Decimal :=
  let (num, den) := d.ratio
  let magnitude := ofRatio false num den
  let top := pointPosition num den
  let candidates := (List.range 17).flatMap fun n : Nat => neighbours tie num den (top - (n + 1))
  (candidates.find? fun c => c.toFloat == magnitude).getD d.exact

def Decimal.stripZeros (d : Decimal) : Decimal :=
  let text := (Nat.toDigits 10 d.digits).reverse
  let zeros := (text.takeWhile (· == '0')).length
  if d.digits = 0 then ⟨0, 0⟩ else ⟨d.digits / 10 ^ zeros, d.exponent + zeros⟩

structure Layout where
  tie : Tie
  /-- Whether digits with the point at this place are written without an exponent. -/
  positional : Int → Bool
  /-- Whether a whole number keeps `.0`. -/
  keepsFraction : Bool
  /-- Whether a single digit before an exponent keeps `.0`. -/
  keepsMantissaFraction : Bool
  exponentWidth : Nat

def zeros (n : Nat) : List Char :=
  List.replicate n '0'

def padLeft (width : Nat) (digits : List Char) : List Char :=
  zeros (width - digits.length) ++ digits

def Layout.write (layout : Layout) (d : Decimal) : List Char :=
  let digits := Nat.toDigits 10 d.digits
  let point : Int := d.exponent + digits.length
  if layout.positional point then
    if 0 ≤ d.exponent then
      digits ++ zeros d.exponent.toNat ++ (if layout.keepsFraction then ['.', '0'] else [])
    else if 0 < point then
      digits.take point.toNat ++ '.' :: digits.drop point.toNat
    else '0' :: '.' :: (zeros (-point).toNat ++ digits)
  else
    let power := point - 1
    let mantissa :=
      match digits with
      | [c] => if layout.keepsMantissaFraction then [c, '.', '0'] else [c]
      | c :: cs => c :: '.' :: cs
      | [] => []
    mantissa ++ 'e' :: (if power < 0 then '-' else '+') ::
      padLeft layout.exponentWidth (Nat.toDigits 10 power.natAbs)

/-- A double by a layout; the words for the values that have no digits are given. -/
def Layout.text (layout : Layout) (x : Float) : String :=
  match dyadic? x with
  | none =>
      if x.isNaN then "NaN" else if isNegative x then "-inf" else "inf"
  | some d =>
      let decimal :=
        if d.significand = 0 then ⟨0, 0⟩ else (shortest layout.tie d).stripZeros
      String.ofList ((if d.negative then ['-'] else []) ++ layout.write decimal)

/-- Numbers in interchange text: with a point or an exponent always, positional from `1e-5` up to
`1e16`. -/
def Layout.interchange : Layout where
  tie := .even
  positional := fun point => -5 < point && point ≤ 16
  keepsFraction := true
  keepsMantissaFraction := false
  exponentWidth := 1

/-- Numbers as plain text: never with an exponent, whole numbers without a point. -/
def Layout.plain : Layout where
  tie := .up
  positional := fun _ => true
  keepsFraction := false
  keepsMantissaFraction := false
  exponentWidth := 1

end Gazetteer.Number
