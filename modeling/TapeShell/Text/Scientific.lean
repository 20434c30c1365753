import TapeShell.Text.Digit

namespace TapeShell

structure Scientific where
  isNegative : Bool := false
  digits : Nat
  exponent : Int := 0
  deriving DecidableEq, Repr

namespace Scientific

def roundDiv (num den : Nat) : Nat :=
  let q := num / den
  let r := num % den
  if 2 * r < den || (2 * r = den && q % 2 = 0) then q else q + 1

def floorLog (num den : Nat) : Int :=
  let e : Int := (Nat.log2 num : Int) - Nat.log2 den
  let isBelow := if 0 ≤ e then num < den <<< e.toNat else num <<< (-e).toNat < den
  if isBelow then e - 1 else e

-- The whole part of the binary number nearest to a quotient. Binary numbers have 53 digits, of which none is
-- below the place -1074; `none` if the number has to be `2 ^ 1024` or more.
def wholeOfDiv? (num den : Nat) : Option Nat :=
  if num = 0 then some 0
  else
    let place := max (floorLog num den - 52) (-1074)
    let whole :=
      if 0 ≤ place then roundDiv num (den <<< place.toNat) <<< place.toNat
      else roundDiv (num <<< (-place).toNat) den >>> (-place).toNat
    if whole < 1 <<< 1024 then some whole else none

-- The whole part of the binary number nearest to a number, without its sign. Numbers far out of range are not
-- computed.
def whole? (s : Scientific) : Option Nat :=
  let length := (Nat.toDigits 10 s.digits).length
  if s.digits = 0 then some 0
  else if 400 < s.exponent + length then none
  else if s.exponent + length < -400 then some 0
  else if 0 ≤ s.exponent then wholeOfDiv? (s.digits * Nat.pow 10 s.exponent.toNat) 1
  else wholeOfDiv? s.digits (Nat.pow 10 (-s.exponent).toNat)

def ofDigits (digits : List Char) : Nat :=
  digits.foldl (fun n d => n * 10 + (d.toNat - '0'.toNat)) 0

def exponent? : List Char → Option Int
  | [] => some 0
  | e :: cs => do
    guard (e = 'e' || e = 'E')
    let (isNegative, digits) := Text.unsigned cs
    guard (digits ≠ [] && digits.all Char.isDigit)
    return if isNegative then -(ofDigits digits : Int) else ofDigits digits

def parse? (cs : List Char) : Option Scientific := do
  let (isNegative, cs) := Text.unsigned cs
  let whole := cs.takeWhile Char.isDigit
  let rest := cs.drop whole.length
  let fraction := if rest.head? = some '.' then (rest.drop 1).takeWhile Char.isDigit else []
  let rest := if rest.head? = some '.' then rest.drop (fraction.length + 1) else rest
  guard (whole ≠ [] || fraction ≠ [])
  let exponent ← exponent? rest
  return { isNegative, digits := ofDigits (whole ++ fraction), exponent := exponent - fraction.length }

end Scientific
end TapeShell
