import TapeShell.Tape.Jumps

namespace TapeShell.Tape

-- A tape seen from the cell under the head: the cells to the left of it, the nearest first, and the cells to
-- the right of it.
structure Cells where
  left : List UInt8 := []
  here : UInt8 := 0
  right : List UInt8 := []
  deriving DecidableEq, Repr

namespace Cells

def length (t : Cells) : Nat :=
  t.left.length + 1 + t.right.length

def position (t : Cells) : Nat :=
  t.left.length

def moveLeft? (t : Cells) : Option Cells :=
  match t.left with
  | [] => none
  | cell :: left => some ⟨left, cell, t.here :: t.right⟩

-- Moves right, onto a new zero cell at the end unless the tape has `maxCells` cells already. There is no limit
-- if `maxCells` is not positive.
def moveRight? (maxCells : Int) (t : Cells) : Option Cells :=
  match t.right with
  | cell :: right => some ⟨t.here :: t.left, cell, right⟩
  | [] =>
    if 0 < maxCells ∧ maxCells ≤ t.length then none
    else some ⟨t.here :: t.left, 0, []⟩

end Cells

inductive ExecError where
  | pointer (pc : Nat)
  | unbalanced (bracket : Unbalanced)
  | limit (maxCells : Int)
  deriving DecidableEq, Repr

structure Run where
  pc : Nat := 0
  cells : Cells := {}
  input : Bytes
  sent : Bytes := []
  deriving DecidableEq, Repr

structure Outcome where
  error : Option ExecError
  sent : Bytes
  unread : Bytes
  deriving DecidableEq, Repr

namespace Run

inductive Progress where
  | running (r : Run)
  | ended (o : Outcome)
  deriving DecidableEq, Repr

def finish (r : Run) : Progress :=
  .ended ⟨none, r.sent.reverse, r.input⟩

def fail (r : Run) (e : ExecError) : Progress :=
  .ended ⟨some e, r.sent.reverse, r.input⟩

def continueAfter (r : Run) (pc : Nat) : Progress :=
  .running { r with pc := pc + 1 }

-- Carries out one operation. Input that has run out reads as zero.
def perform (maxCells : Int) (jumps : Jumps) (r : Run) : Op → Progress
  | .left =>
    match r.cells.moveLeft? with
    | some cells => { r with cells }.continueAfter r.pc
    | none => r.fail (.pointer r.pc)
  | .right =>
    match r.cells.moveRight? maxCells with
    | some cells => { r with cells }.continueAfter r.pc
    | none => r.fail (.limit maxCells)
  | .inc => { r with cells.here := r.cells.here + 1 }.continueAfter r.pc
  | .dec => { r with cells.here := r.cells.here - 1 }.continueAfter r.pc
  | .put => { r with sent := r.cells.here :: r.sent }.continueAfter r.pc
  | .get => { r with cells.here := r.input.headD 0, input := r.input.tail }.continueAfter r.pc
  | .opening => r.continueAfter (if r.cells.here = 0 then (jumps.target? r.pc).getD 0 else r.pc)
  | .closing => r.continueAfter (if r.cells.here ≠ 0 then (jumps.target? r.pc).getD 0 else r.pc)

def step (maxCells : Int) (ops : Array Op) (jumps : Jumps) (r : Run) : Progress :=
  match ops[r.pc]? with
  | none => r.finish
  | some op => r.perform maxCells jumps op

def runFor (maxCells : Int) (ops : Array Op) (jumps : Jumps) : (fuel : Nat) → Run → Option Outcome
  | 0, r =>
    match r.step maxCells ops jumps with
    | .running _ => none
    | .ended o => some o
  | fuel + 1, r =>
    match r.step maxCells ops jumps with
    | .running r => runFor maxCells ops jumps fuel r
    | .ended o => some o

end Run

-- Runs a program on `input`, for at most `allowance` operations more than the program has. A program without
-- loops thus always ends.
def Program.exec (maxCells : Int) (allowance : Nat) (p : Program) (input : Bytes) : Option Outcome :=
  match p.jumps with
  | .error bracket => some ⟨some (.unbalanced bracket), [], input⟩
  | .ok jumps => Run.runFor maxCells p.toArray jumps (p.length + allowance) { input }

end TapeShell.Tape
