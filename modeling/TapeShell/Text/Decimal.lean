import TapeShell.Text.Bytes

namespace TapeShell.Bytes

def ofNat (n : Nat) : Bytes :=
  (Nat.toDigits 10 n).map Char.toUInt8

def ofInt : Int → Bytes
  | .ofNat n => ofNat n
  | .negSucc n => '-'.toUInt8 :: ofNat (n + 1)

def padLeft (width : Nat) (fill : Char) (bs : Bytes) : Bytes :=
  List.replicate (width - bs.length) fill.toUInt8 ++ bs

def ofNatPadded (width n : Nat) : Bytes :=
  padLeft width '0' (ofNat n)

def ofHex (width n : Nat) : Bytes :=
  padLeft width '0' ((Nat.toDigits 16 n).map Char.toUInt8)

def isDigit (b : UInt8) : Bool :=
  '0'.toUInt8 ≤ b && b ≤ '9'.toUInt8

def digitValue (b : UInt8) : Nat :=
  b.toNat - '0'.toNat

def digitsValue (bs : Bytes) : Nat :=
  bs.foldl (fun n b => n * 10 + digitValue b) 0

def toNat? (bs : Bytes) : Option Nat :=
  if bs ≠ [] ∧ bs.all isDigit then some bs.digitsValue else none

end TapeShell.Bytes
