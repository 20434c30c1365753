import TapeShell.Expr.Basic
import TapeShell.Source

namespace TapeShell

namespace Reader

def isSpace (c : Char) : Bool :=
  c = ' ' || c = '\t' || c = '\r' || c = '\n'

def unescape? (delimiter : Char) (c : Char) : Option Char :=
  if c = 'r' then some '\r'
  else if c = 'n' then some '\n'
  else if c = 't' then some '\t'
  else if c = '\\' then some '\\'
  else if c = delimiter then some delimiter
  else none

end Reader

namespace Reading

open Reader

variable {C : Type}

-- Here and below, `n` bounds the runes that are taken. There are never more of them than unread bytes, so
-- a bound above their number is not met.
def space : Nat → Reading (Option Fault) Char
  | 0 => Source.readRune
  | n + 1 => do
    let c ← Source.readRune
    if isSpace c then space n else return c

-- Inside an expression, input that ends is incomplete. A failure of the source stays what it is.
def next (n : Nat) : Reading Fault Char :=
  (space n).adapt (·.getD .incomplete)

def read : Reading Fault Char :=
  Source.readRune.adapt (·.getD .incomplete)

def delimited (delimiter : Char) : Nat → List Char → Reading Fault Bytes
  | 0, _ => throw (.unexpected delimiter)
  | n + 1, content => do
    let c ← read
    if c = delimiter then
      return Bytes.ofChars content.reverse
    else if c = '\\' then
      let c ← read
      match unescape? delimiter c with
      | some c => delimited delimiter n (c :: content)
      | none => throw (.unexpected c)
    else
      delimited delimiter n (c :: content)

def lambda (compile : Bytes → Except Fault C) (n : Nat) : Reading Fault (Expr C) := do
  match compile (← delimited '\'' n []) with
  | .ok code => return .lambda code
  | .error f => throw (.uncompiled f)

-- The parts of an expression are read with `expr`, given the first character of each.
def sub (expr : Char → Reading Fault (Expr C)) (n : Nat) : Reading Fault (Expr C) := do
  expr (← next n)

def cond (expr : Char → Reading Fault (Expr C)) (n : Nat) : Reading Fault (Expr C) := do
  let test ← sub expr n
  let yes ← sub expr n
  let no ← sub expr n
  return .cond test yes no

def args (expr : Char → Reading Fault (Expr C)) : Nat → List (Expr C) → Reading Fault (List (Expr C))
  | 0, _ => throw (.unexpected ')')
  | n + 1, earlier => do
    let c ← next (n + 1)
    if c = ')' then
      return earlier.reverse
    else
      let arg ← expr c
      args expr n (arg :: earlier)

def call (expr : Char → Reading Fault (Expr C)) (n : Nat) : Reading Fault (Expr C) := do
  let c ← next n
  if c = ')' then
    return .nil
  else
    let callee ← expr c
    return .call callee (← args expr n [])

def expr (compile : Bytes → Except Fault C) : Nat → Char → Reading Fault (Expr C)
  | 0, c => throw (.unexpected c)
  | n + 1, c =>
    if c = '\'' ∨ c = '"' then .str <$> delimited c n []
    else if c = '?' then cond (expr compile n) n
    else if c = '`' then lambda compile n
    else if c = '(' then call (expr compile n) n
    else if c = '@' then .macroName <$> delimited '~' n []
    else throw (.unexpected c)

def whole (compile : Bytes → Except Fault C) (n : Nat) : Reading Fault (Expr C) := do
  expr compile n (← (space n).adapt (·.getD .empty))

end Reading

namespace Expr

variable {C : Type}

-- Leaves unread what follows the expression, or the character that is refused.
@[irreducible]
def parse (compile : Bytes → Except Fault C) (s : Source) : Except Fault (Expr C) × Source :=
  Reading.whole compile (s.unread.length + 1) s

def read (compile : Bytes → Except Fault C) (text : Bytes) : Except Fault (Expr C) :=
  match parse compile ⟨text, none⟩ with
  | (.error f, _) => .error f
  | (.ok e, s) =>
    match s.unread.chars.dropWhile Reader.isSpace with
    | [] => .ok e
    | c :: _ => .error (.trailing c)

end Expr
end TapeShell
