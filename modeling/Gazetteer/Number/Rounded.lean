import Gazetteer.Number.Shortest
/-! Doubles rounded to fifteen significant digits: the text of a number in a text column. -/

namespace Gazetteer.Number

/-- The decimal of `count` significant digits nearest to a dyadic number, a half away from zero. -/
def roundedDigits (count : Nat) (d : Dyadic) : Decimal :=
  let (num, den) := d.ratio
  let place := pointPosition num den - count
  let (n, unit) := shiftTens num den place
  Decimal.stripZeros ⟨(2 * n + unit) / (2 * unit), place⟩

/-- Fifteen digits at most, positional from `1e-4` up to `1e15`, and a fraction always.  Zero has no
sign. -/
def Layout.column : Layout where
  tie := .up
  positional := fun point => -4 < point && point ≤ 15
  keepsFraction := true
  keepsMantissaFraction := true
  exponentWidth := 2

def columnText (x : Float) : String :=
  match dyadic? x with
  | none => if isNegative x then "-Inf" else "Inf"
  | some d =>
      let sign := if d.negative && d.significand != 0 then ['-'] else []
      let decimal := if d.significand = 0 then ⟨0, 0⟩ else roundedDigits 15 d
      String.ofList (sign ++ Layout.column.write decimal)

end Gazetteer.Number
