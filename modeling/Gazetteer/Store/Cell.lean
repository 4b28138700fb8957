import Gazetteer.Number.Rounded
import Gazetteer.Text.Blank
/-!
Cells of stored tables, and the affinity of a column: which of its cells it turns into numbers or
text as they are stored.
-/

namespace Gazetteer

-- Powers are those of the core library, whichever others are known.
attribute [local instance (high)] instPowNat

inductive Cell
  | null
  | int (n : Int)
  | real (x : Float)
  | text (s : String)
  | blob (bytes : List UInt8)
deriving DecidableEq, Inhabited

inductive Affinity
  | none
  | text
  | numeric
  | integer
  | real
deriving DecidableEq, Repr

namespace Affinity

def isNumeric : Affinity → Bool
  | .numeric => true
  | .integer => true
  | .real => true
  | _ => false

end Affinity

namespace Cell

/-- The whole numbers that fit sixty-four bits with a sign. -/
def isWord (n : Int) : Bool :=
  -(2 ^ (63 : Nat)) ≤ n && n < 2 ^ (63 : Nat)

/-- A double as a whole number if it is one, the ends of the range excepted. -/
def ofWhole (x : Float) : Cell :=
  match Number.whole? x with
  | some n => if -(2 ^ (63 : Nat)) < n && n < 2 ^ (63 : Nat) - 1 then .int n else .real x
  | none => .real x

def isTypewriterSpace (c : Char) : Bool :=
  c == ' ' || (0x09 ≤ c.toNat && c.toNat ≤ 0x0D)

/-- Text that is a numeral as a whole, as a number; other text as it is. -/
def ofNumericText (s : String) : Cell :=
  match Number.numeral? (Text.trimEnds isTypewriterSpace s.toList) with
  | none => .text s
  | some n =>
      let exact : Int := if n.negative then -(n.digits : Int) else n.digits
      if n.whole && isWord exact then .int exact else ofWhole n.toFloat

/-- Text that looks like a number is compared as that number. -/
def toNumeric : Cell → Cell
  | .text s => ofNumericText s
  | c => c

def toText : Cell → Cell
  | .int n => .text (toString n)
  | .real x => .text (Number.columnText x)
  | c => c

/-- What a column of the given affinity keeps of a cell. -/
def store : Affinity → Cell → Cell
  | .none, c => c
  | .text, c => c.toText
  | .real, c =>
      match c with
      | .text s =>
          match ofNumericText s with
          | .int n => .real (Number.ofInt n)
          | other => other
      | .int n => .real (Number.ofInt n)
      | .real x => if x == 0 then .real 0 else .real x
      | other => other
  | _, c =>
      match c with
      | .text s => ofNumericText s
      | .real x => ofWhole x
      | other => other

/-- The finite number that a cell stands for: that of a number, or of text that is a numeral
between blanks. -/
def number? : Cell → Option Float
  | .int n => some (Number.ofInt n)
  | .real x => if Number.isFinite x then some x else none
  | .text s => Number.finite? (Text.trimEnds Text.isBlank s.toList)
  | _ => none

/-- The text that a cell is shown as, none for null and bytes. -/
def shown? : Cell → Option String
  | .int n => some (toString n)
  | .real x => some (Number.Layout.plain.text x)
  | .text s => some s
  | _ => none

def isNull : Cell → Bool
  | .null => true
  | _ => false

def string? : Cell → Option String
  | .text s => some s
  | _ => none

/-- The characters that a pattern is matched against, none for null. -/
def likeChars? : Cell → Option (List Char)
  | .null => none
  | .int n => some (toString n).toList
  | .real x => some (Number.columnText x).toList
  | .text s => some s.toList
  | .blob bytes => some (bytes.map fun b => Char.ofNat b.toNat)

/-- A number as a cell; what is no number is null. -/
def ofFloat? : Option Float → Cell
  | none => .null
  | some x => if x.isNaN then .null else .real x

end Cell

end Gazetteer
