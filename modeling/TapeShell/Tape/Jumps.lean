import TapeShell.Tape.Program

namespace TapeShell.Tape

structure Jumps where
  targets : Array (Option Nat)
  deriving DecidableEq, Repr

inductive Unbalanced where
  | opening (pc : Nat)
  | closing (pc : Nat)
  deriving DecidableEq, Repr

namespace Jumps

def unpaired (n : Nat) : Jumps :=
  ⟨Array.replicate n none⟩

def pair (j : Jumps) (i k : Nat) : Jumps :=
  ⟨(j.targets.setIfInBounds i (some k)).setIfInBounds k (some i)⟩

def target? (j : Jumps) (pc : Nat) : Option Nat :=
  j.targets[pc]?.join

-- Pairs the brackets of the operations from `pc` on. `pending` holds the positions of the open brackets before
-- them, the innermost first.
def scan : (pc : Nat) → (pending : List Nat) → Jumps → List Op → Except Unbalanced Jumps
  | _, [], j, [] => .ok j
  | _, i :: _, _, [] => .error (.opening i)
  | pc, pending, j, .opening :: ops => scan (pc + 1) (pc :: pending) j ops
  | pc, [], _, .closing :: _ => .error (.closing pc)
  | pc, i :: pending, j, .closing :: ops => scan (pc + 1) pending (j.pair i pc) ops
  | pc, pending, j, _ :: ops => scan (pc + 1) pending j ops

end Jumps

-- The jumps of a program. The first closing bracket without a partner is reported, or else the last opening
-- one.
def Program.jumps (p : Program) : Except Unbalanced Jumps :=
  Jumps.scan 0 [] (.unpaired p.length) p

end TapeShell.Tape
