import TapeShell.Proofs.Eval.Congruence
import TapeShell.Proofs.Eval.Requests

namespace TapeShell

open Machine

variable {C σ α β : Type}

def Reply.recorded (reply : Reply σ α) (requests : List (Request C)) :
    Reply (σ × List (Request C)) α :=
  ⟨reply.value, (reply.state, requests), reply.effects⟩

namespace Machine

def recorded (m : Machine C σ) : Machine C (σ × List (Request C)) where
  compile := m.compile
  expand name := fun (s, requests) => (m.expand name s).recorded (requests ++ [.expand name])
  run code args := fun (s, requests) => (m.run code args s).recorded (requests ++ [.run code args])

end Machine

namespace Action

-- `x.RecordedBy y`: the action `y` does what `x` does and adds to the list of requests.
def RecordedBy (x : Action σ α) (y : Action (σ × List (Request C)) α) : Prop :=
  ∀ s requests, ∃ more, y (s, requests) = (x s).recorded (requests ++ more)

variable {x : Action σ α} {y : Action (σ × List (Request C)) α}

theorem RecordedBy.pure (a : α) :
    RecordedBy (Pure.pure a : Action σ α) (Pure.pure a : Action (σ × List (Request C)) α) :=
  fun s requests => ⟨[], by rw [List.append_nil]; rfl⟩

theorem RecordedBy.bind {f : α → Action σ β} {g : α → Action (σ × List (Request C)) β}
    (h : x.RecordedBy y) (hf : ∀ a, (f a).RecordedBy (g a)) : (x >>= f).RecordedBy (y >>= g) := by
  intro s requests
  have ⟨more, hx⟩ := h s requests
  have ⟨rest, hr⟩ := hf (x s).value (x s).state (requests ++ more)
  refine ⟨more ++ rest, ?_⟩
  rw [← List.append_assoc]
  simp only [Bind.bind, hx]
  rw [Reply.recorded, hr]
  rfl

end Action

theorem Expr.eval_recorded [Code C] (m : Machine C σ) (e : Expr C) :
    (e.eval m).RecordedBy (e.eval m.recorded) :=
  eval_congr (Action.isCongruence Action.RecordedBy.pure Action.RecordedBy.bind)
    (fun code args _ _ => ⟨[.run code args], rfl⟩) e fun name _ _ _ => ⟨[.expand name], rfl⟩

end TapeShell
