/-! The cyclic redundancy check of thirty-two bits, lowest bit first. -/

namespace Gazetteer.Digest

def polynomial : UInt32 := 0xEDB88320

def shiftBit (r : UInt32) : UInt32 :=
  if r &&& 1 = 1 then (r >>> 1) ^^^ polynomial else r >>> 1

def shiftByte (r : UInt32) (b : UInt8) : UInt32 :=
  (List.range 8).foldl (fun r _ => shiftBit r) (r ^^^ b.toUInt32)

def crc32 (bytes : List UInt8) : UInt32 :=
  ~~~ (bytes.foldl shiftByte 0xFFFFFFFF)

end Gazetteer.Digest
