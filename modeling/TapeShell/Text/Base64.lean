import TapeShell.Text.Bytes

namespace TapeShell.Bytes

def base64Value? (b : UInt8) : Option Nat :=
  let c := Char.ofNat b.toNat
  if c.isUpper then some (c.toNat - 'A'.toNat)
  else if c.isLower then some (c.toNat - 'a'.toNat + 26)
  else if c.isDigit then some (c.toNat - '0'.toNat + 52)
  else if c = '+' then some 62
  else if c = '/' then some 63
  else none

def ofBits24 (count n : Nat) : Bytes :=
  [n / 65536, n / 256, n].take count |>.map fun k => (k % 256).toUInt8

def base64Groups? (read : Bytes) : Bytes → Option Bytes
  | [] => some read
  | a :: b :: c :: d :: rest => do
    let pad := '='.toUInt8
    let high := (← base64Value? a) * 262144 + (← base64Value? b) * 4096
    if rest = [] && c = pad && d = pad then return read ++ ofBits24 1 high
    let high := high + (← base64Value? c) * 64
    if rest = [] && d = pad then return read ++ ofBits24 2 high
    base64Groups? (read ++ ofBits24 3 (high + (← base64Value? d))) rest
  | _ => none

def ofBase64? (bs : Bytes) : Option Bytes :=
  base64Groups? [] (bs.filter fun b => b ≠ '\n'.toUInt8 && b ≠ '\r'.toUInt8)

end TapeShell.Bytes
