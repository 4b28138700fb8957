/-! Blank characters, and the trimming and splitting of text at them. -/

namespace Gazetteer.Text

/-- The twenty-five code points with the property White_Space. -/
def isBlank (c : Char) : Bool :=
  let n := c.toNat
  (0x09 ≤ n && n ≤ 0x0D) || n == 0x20 || n == 0x85 || n == 0xA0 || n == 0x1680 ||
    (0x2000 ≤ n && n ≤ 0x200A) || n == 0x2028 || n == 0x2029 || n == 0x202F ||
    n == 0x205F || n == 0x3000

def trimEnds (p : Char → Bool) (cs : List Char) : List Char :=
  ((cs.dropWhile p).reverse.dropWhile p).reverse

def trim (s : String) : String :=
  String.ofList (trimEnds isBlank s.toList)

def allBlank (s : String) : Bool :=
  s.toList.all isBlank

/-- The stretches between the characters that satisfy `p`: always one more than there are such
characters. -/
def pieces (p : Char → Bool) : List Char → List (List Char)
  | [] => [[]]
  | c :: cs =>
      match pieces p cs with
      | [] => [[c]]
      | first :: rest => if p c then [] :: first :: rest else (c :: first) :: rest

theorem pieces_ne_nil (p : Char → Bool) (cs : List Char) : pieces p cs ≠ [] := by
  cases cs with
  | nil => simp [pieces]
  | cons c cs =>
      rw [pieces]
      split
      · simp
      · split <;> simp

def words (s : String) : List String :=
  ((pieces isBlank s.toList).filter fun w => !w.isEmpty).map String.ofList

end Gazetteer.Text
