import Gazetteer.Gzip.PrefixCode
/-!
Compressed blocks: stored bytes, or symbols of a prefix code that stand for bytes and for
repetitions of what was already put out.  The output is kept with its last byte first.
-/

namespace Gazetteer.Gzip

-- Powers are those of the core library, whichever others are known.
attribute [local instance (high)] instPowNat

/-- A length or a distance: its least value, and how many bits are added to it. -/
abbrev Scale := List (Nat × Nat)

def scaleFrom (least : Nat) : List Nat → Scale
  | [] => []
  | extra :: rest => (least, extra) :: scaleFrom (least + 2 ^ extra) rest

/-- The longest repetition has a symbol of its own. -/
def lengthScale : Scale :=
  scaleFrom 3 [0, 0, 0, 0, 0, 0, 0, 0, 1, 1, 1, 1, 2, 2, 2, 2, 3, 3, 3, 3, 4, 4, 4, 4, 5, 5, 5, 5] ++
    [(258, 0)]

def distanceScale : Scale :=
  scaleFrom 1 [0, 0, 0, 0, 1, 1, 2, 2, 3, 3, 4, 4, 5, 5, 6, 6, 7, 7, 8, 8, 9, 9, 10, 10, 11, 11, 12,
    12, 13, 13]

def Scale.value? (scale : Scale) (n : Nat) (bits : Bits) : Option (Nat × Bits) :=
  match scale[n]? with
  | none => none
  | some (least, extra) =>
      (bits.number? extra).map fun (more, rest) => (least + more, rest)

/-- The output with so many bytes repeated from the given distance back. -/
def repeated (distance : Nat) : Nat → List UInt8 → List UInt8
  | 0, output => output
  | n + 1, output => repeated distance n (output.getD (distance - 1) 0 :: output)

def endOfBlock : Nat := 256

/-- The output after the symbols of a block.  Every symbol takes a bit, so that the number of bits
bounds the number of steps. -/
def symbols? (literals distances : PrefixCode) :
    Nat → List UInt8 → Bits → Option (List UInt8 × Bits)
  | 0, _, _ => none
  | steps + 1, output, bits => do
      let (n, bits) ← literals.decode? bits
      if n < endOfBlock then symbols? literals distances steps (UInt8.ofNat n :: output) bits
      else if n = endOfBlock then return (output, bits)
      else
        let (length, bits) ← lengthScale.value? (n - 257) bits
        let (m, bits) ← distances.decode? bits
        let (distance, bits) ← distanceScale.value? m bits
        if output.length < distance then none
        else symbols? literals distances steps (repeated distance length output) bits

/-- Bytes as they are, after their number and its complement. -/
def stored? (output : List UInt8) (bits : Bits) : Option (List UInt8 × Bits) := do
  let (size, bits) ← bits.aligned.number? 16
  let (complement, bits) ← bits.number? 16
  if size + complement = 0xFFFF then
    let (bytes, bits) ← bits.numbers? 8 size
    return ((bytes.map UInt8.ofNat).reverse ++ output, bits)
  else none

def fixedLengths : List Nat :=
  List.replicate 144 8 ++ List.replicate 112 9 ++ List.replicate 24 7 ++ List.replicate 8 8

/-- The order in which the lengths of the code for lengths are given. -/
def lengthOrder : List Nat :=
  [16, 17, 18, 0, 8, 7, 9, 6, 10, 5, 11, 4, 12, 3, 13, 2, 14, 1, 15]

/-- Word lengths by a code: lengths themselves, and repetitions of the last one or of zero.  They
have to be `total` in number; the last one comes first here. -/
def lengths? (code : PrefixCode) (total : Nat) :
    Nat → List Nat → Bits → Option (List Nat × Bits)
  | 0, _, _ => none
  | steps + 1, found, bits =>
      if found.length = total then some (found, bits)
      else if total < found.length then none
      else do
        let (n, bits) ← code.decode? bits
        match n with
        | 16 =>
            let (more, bits) ← bits.number? 2
            let last ← found.head?
            lengths? code total steps (List.replicate (3 + more) last ++ found) bits
        | 17 =>
            let (more, bits) ← bits.number? 3
            lengths? code total steps (List.replicate (3 + more) 0 ++ found) bits
        | 18 =>
            let (more, bits) ← bits.number? 7
            lengths? code total steps (List.replicate (11 + more) 0 ++ found) bits
        | n => lengths? code total steps (n :: found) bits

def codes? (bits : Bits) : Option (PrefixCode × PrefixCode × Bits) := do
  let (literals, bits) ← bits.number? 5
  let (distances, bits) ← bits.number? 5
  let (given, bits) ← bits.number? 4
  let literals := literals + 257
  let distances := distances + 1
  if literals > 286 || distances > 30 then none
  let (widths, bits) ← bits.numbers? 3 (given + 4)
  let width (n : Nat) : Nat := widths.getD (lengthOrder.idxOf n) 0
  let code ← PrefixCode.ofLengths? ((List.range 19).map width)
  let total := literals + distances
  let (found, bits) ← lengths? code total (total + 1) [] bits
  let lengths := found.reverse
  let literalCode ← PrefixCode.ofLengths? (lengths.take literals)
  let distanceCode ← PrefixCode.ofLengths? (lengths.drop literals)
  return (literalCode, distanceCode, bits)

def block? (kind : Nat) (output : List UInt8) (bits : Bits) : Option (List UInt8 × Bits) :=
  match kind with
  | 0 => stored? output bits
  | 1 => do
      let literals ← PrefixCode.ofLengths? fixedLengths
      let distances ← PrefixCode.ofLengths? (List.replicate 32 5)
      symbols? literals distances (bits.length + 1) output bits
  | 2 => do
      let (literals, distances, rest) ← codes? bits
      symbols? literals distances (rest.length + 1) output rest
  | _ => none

/-- The output of the blocks up to the one that is marked as the last. -/
def blocks? : Nat → List UInt8 → Bits → Option (List UInt8 × Bits)
  | 0, _, _ => none
  | steps + 1, output, bits => do
      let (last, bits) ← bits.number? 1
      let (kind, bits) ← bits.number? 2
      let (output, bits) ← block? kind output bits
      if last = 1 then return (output, bits) else blocks? steps output bits

/-- The bytes that compressed bytes stand for, and the bytes after them. -/
def inflate? (bytes : List UInt8) : Option (List UInt8 × List UInt8) :=
  let bits := bitsOfBytes bytes
  (blocks? (bits.length + 1) [] bits).map fun (output, rest) =>
    (output.reverse, bytes.drop (bytes.length - rest.length / 8))

end Gazetteer.Gzip
