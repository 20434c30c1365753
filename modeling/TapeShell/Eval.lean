import TapeShell.Machine.Basic

namespace TapeShell

inductive Stop where
  | quit
  | failed (cause : Fault)
  | hole

namespace Stop

-- The fault that an evaluation ends in, unless it came upon a hole.
def fault? : Stop → Option Fault
  | .quit => some (.signal .quit)
  | .failed cause => some (.evaluation cause)
  | .hole => none

end Stop

namespace Expr

variable {C : Type} [Code C]

def ofExpansion : Except Fault C → Except Stop (Expr C)
  | .ok code => .ok (.lambda code)
  | .error f =>
    if f.signal? = some .proceed then .ok .nil
    else if f.signal? = some .quit then .error .quit
    else .error (.failed f)

def ofRun : Except Fault (Expr C) → Except Stop (Expr C)
  | .ok .hole => .ok .nil
  | .ok v => .ok v
  | .error f => .error (.failed (.context "runtime error: " f))

def notCallable (v : Expr C) : Stop :=
  .failed (.plain ("need callable here, found " ++ v.display ++ " instead"))

def eval {μ : Type → Type} [Monad μ] (m : MachineIn μ C) : Expr C → μ (Except Stop (Expr C))
  | .nil => pure (.ok .nil)
  | .str text => pure (.ok (.str text))
  | .lambda code => pure (.ok (.lambda code))
  | .macroName name => ofExpansion <$> m.expand name
  | .cond test yes no => do
    match ← test.eval m with
    | .error stop => pure (.error stop)
    | .ok v => if v.truthy then yes.eval m else no.eval m
  | .call callee args => do
    match ← callee.eval m with
    | .error stop => pure (.error stop)
    | .ok (.lambda code) => ofRun <$> m.run code args
    | .ok v => pure (.error (notCallable v))
  | .hole => pure (.error .hole)

end Expr
end TapeShell
