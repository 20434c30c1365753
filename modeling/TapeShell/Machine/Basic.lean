import TapeShell.Expr.Basic
import TapeShell.Log.Event

namespace TapeShell

inductive Effect where
  | write (text : Bytes)
  | log (event : Log.Event)
  deriving DecidableEq, Repr

structure Reply (σ α : Type) where
  value : α
  state : σ
  effects : List Effect := []

def Action (σ α : Type) : Type :=
  σ → Reply σ α

namespace Action

variable {σ α : Type}

instance : Monad (Action σ) where
  pure a := fun s => ⟨a, s, []⟩
  bind x f := fun s =>
    let r := x s
    let t := f r.value r.state
    ⟨t.value, t.state, r.effects ++ t.effects⟩

def get : Action σ σ :=
  fun s => ⟨s, s, []⟩

def set (s : σ) : Action σ Unit :=
  fun _ => ⟨(), s, []⟩

def emit (effects : List Effect) : Action σ Unit :=
  fun s => ⟨(), s, effects⟩

end Action

-- What can be done where there is a state of type `σ`.
class Acts (μ : Type → Type) (σ : outParam Type) where
  get : μ σ
  set : σ → μ Unit
  emit : List Effect → μ Unit

instance {σ : Type} : Acts (Action σ) σ where
  get := Action.get
  set := Action.set
  emit := Action.emit

-- Arguments are given to a machine as they stand. A run that has no result gives a hole.
structure MachineIn (μ : Type → Type) (C : Type) where
  compile : Bytes → Except Fault C
  expand : (name : Bytes) → μ (Except Fault C)
  run : (code : C) → (args : List (Expr C)) → μ (Except Fault (Expr C))

abbrev Machine (C σ : Type) : Type :=
  MachineIn (Action σ) C

namespace Machine

def unimplemented {C : Type} (compile : Bytes → Except Fault C) : Machine C Unit where
  compile
  expand _ := pure (.error .notImplemented)
  run _ _ := pure (.error .notImplemented)

end Machine
end TapeShell
