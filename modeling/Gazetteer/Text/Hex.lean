/-! Hexadecimal text. -/

namespace Gazetteer.Text

def hexDigit (n : Nat) : Char :=
  if n < 10 then Char.ofNat ('0'.toNat + n) else Char.ofNat ('a'.toNat + (n - 10))

def hex (bytes : List UInt8) : String :=
  String.ofList (bytes.flatMap fun b => [hexDigit (b.toNat / 16), hexDigit (b.toNat % 16)])

def hexValue? (c : Char) : Option Nat :=
  if c.isDigit then some (c.toNat - '0'.toNat)
  else
    let low := c.toLower
    if 'a' ≤ low && low ≤ 'f' then some (low.toNat - 'a'.toNat + 10) else none

def bytesOfDigits? : List Char → Option (List UInt8)
  | [] => some []
  | high :: low :: rest => do
      let h ← hexValue? high
      let l ← hexValue? low
      return UInt8.ofNat (16 * h + l) :: (← bytesOfDigits? rest)
  | _ => none

def ofHex? (s : String) : Option (List UInt8) :=
  bytesOfDigits? s.toList

end Gazetteer.Text
