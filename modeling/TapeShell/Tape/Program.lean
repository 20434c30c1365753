import TapeShell.Text.Rune

namespace TapeShell.Tape

inductive Op where
  | left
  | right
  | inc
  | dec
  | put
  | get
  | opening
  | closing
  deriving DecidableEq, Repr

namespace Op

def char : Op → Char
  | .left => '<'
  | .right => '>'
  | .inc => '+'
  | .dec => '-'
  | .put => '.'
  | .get => ','
  | .opening => '['
  | .closing => ']'

def ofChar? : Char → Option Op
  | '<' => some .left
  | '>' => some .right
  | '+' => some .inc
  | '-' => some .dec
  | '.' => some .put
  | ',' => some .get
  | '[' => some .opening
  | ']' => some .closing
  | _ => none

@[simp]
theorem ofChar?_char (op : Op) : ofChar? op.char = some op := by
  cases op <;> rfl

theorem toUInt8_char_inj {a b : Op} (h : a.char.toUInt8 = b.char.toUInt8) : a = b := by
  revert h
  cases a <;> cases b <;> decide

end Op

abbrev Program := List Op

namespace Program

def ofChars : List Char → Except Char Program
  | [] => .ok []
  | c :: cs =>
    match Op.ofChar? c with
    | none => .error c
    | some op => (ofChars cs).map (op :: ·)

def compile (src : Bytes) : Except Char Program :=
  ofChars src.chars

def source (p : Program) : Bytes :=
  p.map (·.char.toUInt8)

def adjust (current target : UInt8) : Program :=
  if current ≤ target then List.replicate (target.toNat - current.toNat) .inc
  else List.replicate (current.toNat - target.toNat) .dec

def printingFrom (current : UInt8) : Bytes → Program
  | [] => []
  | b :: bs => adjust current b ++ .put :: printingFrom b bs

-- The program that puts `bs` out: it stays on one cell and has no loop.
def printing (bs : Bytes) : Program :=
  printingFrom 0 bs

end Program
end TapeShell.Tape
