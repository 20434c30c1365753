namespace TapeShell.Text

def hexValue? (c : Char) : Option Nat :=
  if '0' ≤ c ∧ c ≤ '9' then some (c.toNat - '0'.toNat)
  else if 'a' ≤ c ∧ c ≤ 'f' then some (c.toNat - 'a'.toNat + 10)
  else if 'A' ≤ c ∧ c ≤ 'F' then some (c.toNat - 'A'.toNat + 10)
  else none

def number? (base : Nat) (digits : List Char) : Option Nat := do
  guard (digits ≠ [])
  digits.foldlM (fun n c => do
    let d ← hexValue? c
    guard (d < base)
    return n * base + d) 0

def codePoint? (digits : List Char) : Option Char := do
  let n ← number? 16 digits
  guard n.isValidChar
  return Char.ofNat n

def unsigned : List Char → Bool × List Char
  | '-' :: cs => (true, cs)
  | '+' :: cs => (false, cs)
  | cs => (false, cs)

end TapeShell.Text
