import Gazetteer.Gzip.Bits
/-!
Prefix codes given by the lengths of their code words: words of one length ascend with their
symbols, and shorter words come before longer ones.
-/

namespace Gazetteer.Gzip

-- Powers are those of the core library, whichever others are known.
attribute [local instance (high)] instPowNat

/-- A code as the tree of its words. -/
inductive PrefixCode
  | none
  | symbol (n : Nat)
  | branch (zero one : PrefixCode)
deriving Repr, Inhabited

namespace PrefixCode

/-- The symbol at the end of the word that a stream begins with, and the bits after the word. -/
def decode? : PrefixCode → Bits → Option (Nat × Bits)
  | none, _ => .none
  | symbol n, bits => some (n, bits)
  | branch zero one, bits =>
      match bits with
      | [] => .none
      | false :: rest => zero.decode? rest
      | true :: rest => one.decode? rest

def insert (n : Nat) : List Bool → PrefixCode → PrefixCode
  | [], _ => symbol n
  | false :: word, branch zero one => branch (insert n word zero) one
  | true :: word, branch zero one => branch zero (insert n word one)
  | false :: word, _ => branch (insert n word none) none
  | true :: word, _ => branch none (insert n word none)

/-- The bits of a word, its first bit the most significant one of the number. -/
def word (length value : Nat) : List Bool :=
  (List.range length).reverse.map fun i => value.testBit i

def maxLength : Nat := 15

/-- The share that words of a length take of all words of the greatest length. -/
def share (length : Nat) : Nat :=
  2 ^ (maxLength - length)

/-- Words put into a code one after the other, from the given place on. -/
def assign (place : Nat) (code : PrefixCode) : List (Nat × Nat) → PrefixCode
  | [] => code
  | (length, n) :: rest =>
      assign (place + share length) (code.insert n (word length (place / share length))) rest

/-- The code with words of the given lengths, zero for symbols without a word.  The words have to
be all there is room for, unless there is at most one. -/
def ofLengths? (lengths : List Nat) : Option PrefixCode :=
  let used := lengths.zipIdx.filter fun entry => entry.1 != 0
  let total := used.foldl (fun places entry => places + share entry.1) 0
  if total == share 0 || used.length ≤ 1 then
    some (assign 0 none (used.mergeSort fun a b => a.1 ≤ b.1))
  else .none

end PrefixCode

end Gazetteer.Gzip
