/-! Streams of bits, the lowest bit of each byte first. -/

namespace Gazetteer.Gzip

abbrev Bits := List Bool

def bitsOfByte (b : UInt8) : Bits :=
  (List.range 8).map fun i => b.toNat.testBit i

def bitsOfBytes (bytes : List UInt8) : Bits :=
  bytes.flatMap bitsOfByte

namespace Bits

/-- A number of so many bits, the lowest one first, and the bits after it. -/
def number? : Nat → Bits → Option (Nat × Bits)
  | 0, bits => some (0, bits)
  | _ + 1, [] => none
  | n + 1, b :: bits => (number? n bits).map fun (value, rest) => (b.toNat + 2 * value, rest)

/-- So many numbers of `width` bits. -/
def numbers? (width : Nat) : Nat → Bits → Option (List Nat × Bits)
  | 0, bits => some ([], bits)
  | n + 1, bits =>
      match number? width bits with
      | none => none
      | some (value, rest) =>
          (numbers? width n rest).map fun (values, rest) => (value :: values, rest)

/-- The bits from the next whole byte on, of a stream that ends with a whole byte. -/
def aligned (bits : Bits) : Bits :=
  bits.drop (bits.length % 8)

end Bits

end Gazetteer.Gzip
