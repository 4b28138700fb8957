/-! Letters A to Z without regard to case.  Every other character stands for itself. -/

namespace Gazetteer.Text

/-- The text with A to Z replaced by a to z. -/
def fold (s : String) : String :=
  String.ofList (s.toList.map Char.toLower)

/-- Equality up to the case of A to Z. -/
def sameLetters (a b : String) : Bool :=
  fold a == fold b

theorem sameLetters_refl (a : String) : sameLetters a a = true := by
  simp [sameLetters]

theorem sameLetters_comm (a b : String) : sameLetters a b = sameLetters b a := by
  simp [sameLetters, Bool.beq_comm]

end Gazetteer.Text
