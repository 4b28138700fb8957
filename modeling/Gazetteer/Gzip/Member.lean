import Gazetteer.Digest.Crc32
import Gazetteer.Gzip.Inflate
/-!
Compressed files: a header, compressed blocks, and the check and size of what they stand for.  Only
the first member of a file counts.
-/

namespace Gazetteer.Gzip

-- Powers are those of the core library, whichever others are known.
attribute [local instance (high)] instPowNat

def isCompressed : List UInt8 → Bool
  | 0x1F :: 0x8B :: _ => true
  | _ => false

def littleEndian : List UInt8 → Nat
  | [] => 0
  | b :: rest => b.toNat + 256 * littleEndian rest

/-- The bytes after a text that ends with a zero byte. -/
def afterText? : List UInt8 → Option (List UInt8)
  | [] => none
  | b :: rest => if b = 0 then some rest else afterText? rest

/-- The bytes after a field that its own length goes before. -/
def afterField? : List UInt8 → Option (List UInt8)
  | low :: high :: rest =>
      let size := littleEndian [low, high]
      if rest.length < size then none else some (rest.drop size)
  | _ => none

/-- The bytes after the optional parts of a header, of which the flags tell, and before the check
of the header itself. -/
def afterOptions? (flags : Nat) (bytes : List UInt8) : Option (List UInt8) := do
  let bytes ← if flags.testBit 2 then afterField? bytes else some bytes
  let bytes ← if flags.testBit 3 then afterText? bytes else some bytes
  if flags.testBit 4 then afterText? bytes else some bytes

def afterHeader? (bytes : List UInt8) : Option (List UInt8) :=
  match bytes with
  | 0x1F :: 0x8B :: 8 :: flags :: _ :: _ :: _ :: _ :: _ :: _ :: rest =>
      if flags.toNat ≥ 32 then none
      else
        match afterOptions? flags.toNat rest with
        | none => none
        | some body =>
            if flags.toNat.testBit 1 then
              match body with
              | low :: high :: blocks =>
                  let header := bytes.take (bytes.length - body.length)
                  if littleEndian [low, high] = (Digest.crc32 header).toNat % 2 ^ (16 : Nat) then
                    some blocks
                  else none
              | _ => none
            else some body
  | _ => none

/-- The bytes that the first member of a compressed file stands for. -/
def decompress? (bytes : List UInt8) : Option (List UInt8) := do
  let blocks ← afterHeader? bytes
  let (output, trailer) ← inflate? blocks
  let sum := littleEndian (trailer.take 4)
  let size := littleEndian ((trailer.drop 4).take 4)
  let sound := sum == (Digest.crc32 output).toNat && size == output.length % 2 ^ (32 : Nat)
  if trailer.length ≥ 8 && sound then return output else none

end Gazetteer.Gzip
