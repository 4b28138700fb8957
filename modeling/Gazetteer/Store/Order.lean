import Gazetteer.Store.Cell
/-!
The order of cells: null first, then numbers by value, then text, then bytes.  Text is ordered by
code points, or for sorting without regard to the case of A to Z.  The order is that of ranks,
which are compared part by part.
-/

namespace Gazetteer

-- Powers are those of the core library, whichever others are known.
attribute [local instance (high)] instPowNat

inductive Collation
  | binary
  | noCase
deriving DecidableEq, Repr

/-- The place of a cell in the order.  `number` is the value times `2 ^ 1074`. -/
structure Rank where
  kind : Nat
  number : Int
  units : List Nat
  length : Nat
deriving DecidableEq, Repr

namespace Rank

def compare : Rank → Rank → Ordering :=
  compareLex (compareOn kind)
    (compareLex (compareOn number) (compareLex (compareOn units) (compareOn length)))

end Rank

namespace Cell

/-- Text without regard to letter case: a NUL ends what is compared, and the length decides then. -/
def noCaseUnits (s : String) : List Nat :=
  (s.toList.takeWhile fun c => c.toNat != 0).map fun c => c.toLower.toNat

def rank (collation : Collation) : Cell → Rank
  | .null => ⟨0, 0, [], 0⟩
  | .int n => ⟨1, n * 2 ^ (1074 : Nat), [], 0⟩
  | .real x => ⟨1, Number.scaled x, [], 0⟩
  | .text s =>
      match collation with
      | .binary => ⟨2, 0, s.toList.map Char.toNat, 0⟩
      | .noCase => ⟨2, 0, noCaseUnits s, s.utf8ByteSize⟩
  | .blob bytes => ⟨3, 0, bytes.map UInt8.toNat, 0⟩

def compare (collation : Collation) (a b : Cell) : Ordering :=
  (a.rank collation).compare (b.rank collation)

/-- Whether two cells count as one value in a group or a set. -/
def same (a b : Cell) : Bool :=
  a.rank .binary == b.rank .binary

/-- Equality in a comparison: null equals nothing. -/
def equals (a b : Cell) : Bool :=
  !a.isNull && !b.isNull && a.same b

/-- Whether `a` is at most `b` in a comparison, which null never is. -/
def atMost (a b : Cell) : Bool :=
  !a.isNull && !b.isNull && compare .binary a b != .gt

/-- A value that is compared with a column of the given affinity. -/
def against (affinity : Affinity) (c : Cell) : Cell :=
  if affinity.isNumeric then c.toNumeric
  else
    match affinity with
    | .text => c.toText
    | _ => c

def joins (left right : Affinity) (a b : Cell) : Bool :=
  if left.isNumeric || right.isNumeric then a.toNumeric.equals b.toNumeric else a.equals b

/-- One cell of each group of equal cells, in the order of their first members. -/
def distinct : List Cell → List Cell
  | [] => []
  | c :: cs =>
      let rest := distinct cs
      c :: rest.filter fun other => !c.same other

def minimum? (cells : List Cell) : Option Cell :=
  cells.foldl (fun best c =>
    match best with
    | none => some c
    | some b => if compare .binary c b == .lt then some c else some b) none

def maximum? (cells : List Cell) : Option Cell :=
  cells.foldl (fun best c =>
    match best with
    | none => some c
    | some b => if compare .binary b c == .lt then some c else some b) none

end Cell

end Gazetteer
