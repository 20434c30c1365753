import TapeShell.Eval

namespace TapeShell

variable {C : Type} {μ ν : Type → Type} [Monad μ] [Monad ν]

-- A relation between actions of two kinds that sequences of related actions are in.
structure IsCongruence (μ ν : Type → Type) [Monad μ] [Monad ν] (R : {α : Type} → μ α → ν α → Prop) :
    Prop where
  pure : ∀ {α : Type} (a : α), R (Pure.pure a) (Pure.pure a)
  map  : ∀ {α β : Type} {x : μ α} {y : ν α} (f : α → β), R x y → R (f <$> x) (f <$> y)
  bind : ∀ {α β : Type} {x : μ α} {y : ν α} {f : α → μ β} {g : α → ν β},
    R x y → (∀ a, R (f a) (g a)) → R (x >>= f) (y >>= g)

theorem Action.isCongruence {σ τ : Type} {R : {α : Type} → Action σ α → Action τ α → Prop}
    (pure : ∀ {α : Type} (a : α), R (Pure.pure a) (Pure.pure a))
    (bind : ∀ {α β : Type} {x : Action σ α} {y : Action τ α} {f : α → Action σ β} {g : α → Action τ β},
      R x y → (∀ a, R (f a) (g a)) → R (x >>= f) (y >>= g)) : IsCongruence (Action σ) (Action τ) R where
  pure := pure
  map f h := bind h fun a => pure (f a)
  bind := bind

namespace Expr

def names : Expr C → List Bytes
  | .cond test yes no => test.names ++ (yes.names ++ no.names)
  | .call callee _ => callee.names
  | .macroName name => [name]
  | _ => []

variable [Code C] {m : MachineIn μ C} {m' : MachineIn ν C} {R : {α : Type} → μ α → ν α → Prop}

theorem eval_congr (hR : IsCongruence μ ν R)
    (hr : ∀ code args, R (m.run code args) (m'.run code args)) :
    (e : Expr C) → (∀ name ∈ e.names, R (m.expand name) (m'.expand name)) → R (e.eval m) (e.eval m')
  | .nil, _ => hR.pure _
  | .str _, _ => hR.pure _
  | .lambda _, _ => hR.pure _
  | .hole, _ => hR.pure _
  | .macroName name, h => by
    rw [eval, eval]
    exact hR.map ofExpansion (h name (List.mem_singleton_self name))
  | .cond test yes no, h => by
    simp only [names, List.forall_mem_append] at h
    rw [eval, eval]
    refine hR.bind (eval_congr hR hr test h.left) fun value => ?_
    rcases value with stop | v
    case error => exact hR.pure _
    case ok =>
      by_cases hv : v.truthy <;> simp only [hv, Bool.false_eq_true, if_true, if_false]
      case pos => exact eval_congr hR hr yes h.right.left
      case neg => exact eval_congr hR hr no h.right.right
  | .call callee args, h => by
    rw [eval, eval]
    refine hR.bind (eval_congr hR hr callee h) fun value => ?_
    rcases value with stop | v
    case error => exact hR.pure _
    case ok =>
      cases v
      case lambda code => exact hR.map ofRun (hr code args)
      all_goals exact hR.pure _

end Expr
end TapeShell
