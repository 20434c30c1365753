import TapeShell.Proofs.Deck.Ledger
import TapeShell.Proofs.Wire.Result

namespace TapeShell

namespace Expr

variable {C σ : Type}

inductive IsValue : Expr C → Prop
  | nil    : IsValue .nil
  | str    : IsValue (.str text)
  | lambda : IsValue (.lambda code)

inductive IsText : Expr C → Prop
  | nil : IsText .nil
  | str : IsText (.str (Bytes.ofChars cs))

theorem IsText.isValue {v : Expr C} : v.IsText → v.IsValue
  | .nil => .nil
  | .str => .str

theorem IsText.ne_lambda {v : Expr C} (h : v.IsText) (code : C) : v ≠ .lambda code := by
  rintro rfl
  cases h

section Answers

variable {x : Except Fault C} {y : Except Fault (Expr C)} {v : Expr C}

theorem isValue_of_ofExpansion (h : ofExpansion x = .ok v) : v.IsValue := by
  unfold ofExpansion at h
  repeat' split at h
  case h_1 =>
    cases h
    exact .lambda
  case isTrue =>
    cases h
    exact .nil
  all_goals cases h

theorem isText_of_ofRun (hy : ∀ u, y = .ok u → u.IsText) (h : ofRun y = .ok v) : v.IsText := by
  unfold ofRun at h
  split at h
  all_goals cases h
  case h_1 => exact .nil
  case h_2 => exact hy v rfl

end Answers

variable [Code C] {m : Machine C σ}

theorem IsValue.eval_self {v : Expr C} (h : v.IsValue) (m : Machine C σ) (s : σ) :
    v.eval m s = ⟨.ok v, s, []⟩ := by
  cases h <;> rfl

-- `Takes m e s e' s'`: evaluated from the state `s`, the conditional `e` comes down to its part `e'`, by the
-- branches that are taken, in the state `s'`. What is no conditional is taken as it is.
inductive Takes (m : Machine C σ) : Expr C → σ → Expr C → σ → Prop
  | here   : Takes m e s e s
  | branch : (test.eval m s).value = .ok v →
    Takes m (if v.truthy then yes else no) (test.eval m s).state e t → Takes m (.cond test yes no) s e t

theorem Takes.eval_eq {e e' : Expr C} {s t : σ} (h : e.Takes m s e' t) :
    (e.eval m s).value = (e'.eval m t).value := by
  induction h
  case here => rfl
  case branch hv _ hi => rw [eval_cond_of_ok hv, hi]

end Expr

def Machine.SendsText {C σ : Type} (m : Machine C σ) : Prop :=
  ∀ code args s v, (m.run code args s).value = .ok v → v.IsText

namespace Expr

variable {C σ : Type} [Code C] {m : Machine C σ} {s t : σ} {e callee v : Expr C} {args : List (Expr C)}

theorem isText_of_eval_call (hm : m.SendsText) (h : ((call callee args).eval m s).value = .ok v) :
    v.IsText := by
  cases course m (.call callee args) s
  case callee hv _ =>
    rw [eval_call_of_error hv] at h
    cases h
  case run hv _ =>
    rw [eval_call_of_lambda hv] at h
    exact isText_of_ofRun (hm _ _ _) h
  case notCallable hl hv _ =>
    rw [eval_call_of_ok hv hl] at h
    cases h

theorem isValue_of_eval (hm : m.SendsText) (h : (e.eval m s).value = .ok v) : v.IsValue := by
  induction course m e s
  case macroName => exact isValue_of_ofExpansion h
  case test hv _ _ =>
    rw [eval_cond_of_error hv] at h
    cases h
  case branch hv _ _ _ hi =>
    rw [eval_cond_of_ok hv] at h
    exact hi h
  case callee | run | notCallable => exact (isText_of_eval_call hm h).isValue
  case hole => cases h
  all_goals
    cases h
    constructor

theorem exists_stop_of_takes_call {callee' : Expr C} {args' : List (Expr C)} (hm : m.SendsText)
    (ht : callee.Takes m s (.call callee' args') t) :
    ∃ stop, ((call callee args).eval m s).value = .error stop := by
  cases hv : (callee.eval m s).value
  case error stop => exact ⟨stop, eval_call_of_error hv⟩
  case ok v =>
    have htext := isText_of_eval_call hm (ht.eval_eq ▸ hv)
    exact ⟨_, eval_call_of_ok hv htext.ne_lambda⟩

end Expr

namespace Wire

open TapeShell.Expr

variable {C : Type}

theorem isText_decode (v : Bencode.Value) : (decode v : Expr C).IsText := by
  rcases decode_eq_nil_or_str v with h | ⟨s, h⟩
  case inl =>
    rw [h]
    exact .nil
  case inr =>
    have ⟨_, cs, hs⟩ := decode_eq_str_iff.mp h
    rw [h, hs]
    exact .str

theorem isText_of_decodeResult {raw : Bytes} {v : Expr C} (h : decodeResult raw = .ok v) : v.IsText := by
  unfold decodeResult at h
  split at h
  all_goals cases h
  exact isText_decode _

theorem isText_of_call {σ : Type} [Code C] {runner : Bytes → Exchange} {args : List (Expr C)} {s : σ}
    {v : Expr C} (h : (call runner args s).value = .ok v) : v.IsText := by
  cases ha : encodeArgs args
  case error =>
    simp only [call, callIn, ha] at h
    cases h
  case ok input =>
    cases hf : (runner input).fault <;> simp only [call, callIn, ha, hf] at h
    case none => exact isText_of_decodeResult h
    case some => cases h

end Wire

namespace Deck

open TapeShell.Expr Tape

theorem sendsText_machine (c : Config) : (machine c).SendsText := by
  intro code args d v h
  cases hc : (Wire.call (exchange c.maxCells c.allowance code) args d).value
  case error =>
    have ⟨hv, _⟩ := run_of_error hc
    cases hv ▸ h
  case ok =>
    have ⟨hv, _⟩ := run_of_ok hc
    cases hv ▸ h
    exact Wire.isText_of_call hc

theorem eval_gives_values (c : Config) (d : Deck) (e : Expr Program) :
    (∀ v, (e.eval (machine c) d).value = .ok v →
      v.IsValue ∧ ∀ d', v.eval (machine c) d' = ⟨.ok v, d', []⟩) ∧
    ∀ callee args, e = .call callee args →
      (∀ v, (e.eval (machine c) d).value = .ok v → v.IsText) ∧
      ∀ callee' args' d', callee.Takes (machine c) d (.call callee' args') d' →
        ∃ stop, (e.eval (machine c) d).value = .error stop := by
  have hm := sendsText_machine c
  constructor
  case left =>
    intro v h
    have hv := isValue_of_eval hm h
    exact ⟨hv, hv.eval_self (machine c)⟩
  case right =>
    rintro callee args rfl
    exact ⟨fun v => isText_of_eval_call hm, fun _ _ _ => exists_stop_of_takes_call hm⟩

-- A call gives a text, and then it stands as the callee of another call, in a branch of a branch.
theorem eval_gives_values_call_of_call :
    let c : Config := { clock := fun n => { unix := n } }
    let inner : Expr Program := .call (.macroName "A") [.nil]
    let callee : Expr Program := .cond (.str "x") (.cond .nil .nil inner) .nil
    (inner.eval (machine c) {}).value = .ok (.str "A") ∧
    (∀ d, (Expr.str "A").eval (machine c) d = ⟨.ok (.str "A"), d, []⟩) ∧
    callee.Takes (machine c) {} inner {} ∧
    ∃ stop, ((Expr.call callee []).eval (machine c) {}).value = .error stop := by
  intro c inner callee
  have hv : (inner.eval (machine c) {}).value = .ok (.str "A") := rfl
  have ht : callee.Takes (machine c) {} inner {} := .branch rfl (.branch rfl .here)
  have ⟨hi, _⟩ := eval_gives_values c {} inner
  have ⟨_, ho⟩ := eval_gives_values c {} (.call callee [])
  exact ⟨hv, (hi _ hv).right, ht, (ho callee [] rfl).right _ _ _ ht⟩

end Deck
end TapeShell
