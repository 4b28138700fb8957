import Gazetteer.Text.CaseTable
/-!
Lowercasing by the full Unicode rules: one mapping per character, except that U+0130 becomes two
characters and a capital sigma at the end of a word becomes a final sigma.
-/

namespace Gazetteer.Text

private def inRanges (ranges : List (Nat × Nat)) (c : Char) : Bool :=
  ranges.any fun (first, last) => first ≤ c.toNat && c.toNat ≤ last

def isCaseIgnorable (c : Char) : Bool :=
  inRanges caseIgnorableRanges c

def isCased (c : Char) : Bool :=
  inRanges casedRanges c

def lowercaseChar (c : Char) : List Char :=
  if c.toNat < 0x80 then [c.toLower]
  else if c.toNat == 0x130 then ['i', Char.ofNat 0x307]
  else
    match lowercaseShifts.find? fun (first, last, step, _) =>
        first ≤ c.toNat && c.toNat ≤ last && (c.toNat - first) % step == 0 with
    | some (_, _, _, shift) => [Char.ofNat (c.toNat + shift).toNat]
    | none => [c]

/-- Whether the first character that is not case-ignorable is a cased one. -/
def leadsToCased (cs : List Char) : Bool :=
  match cs.dropWhile isCaseIgnorable with
  | [] => false
  | c :: _ => isCased c

/-- The lowercase of a capital sigma between the text `before` it, read backwards, and the text
`after` it: the final form ends a word. -/
def lowercaseSigma (before after : List Char) : Char :=
  if leadsToCased before && !leadsToCased after then Char.ofNat 0x3C2 else Char.ofNat 0x3C3

def lowercaseAfter (before : List Char) : List Char → List Char
  | [] => []
  | c :: cs =>
      (if c.toNat == 0x3A3 then [lowercaseSigma before cs] else lowercaseChar c) ++
        lowercaseAfter (c :: before) cs

def lowercase (s : String) : String :=
  String.ofList (lowercaseAfter [] s.toList)

end Gazetteer.Text
