import TapeShell.Machine.Scripted
import TapeShell.Proofs.Eval.Requests
import TapeShell.Proofs.Reader.Grammar
import TapeShell.Proofs.Wire.Arguments

namespace TapeShell.Expr

variable {C σ : Type}

section Answers

variable {x : Except Fault C} {y : Except Fault (Expr C)}

theorem ofExpansion_ne_ok_hole : ofExpansion x ≠ .ok .hole := by
  unfold ofExpansion
  repeat' split
  all_goals simp

theorem ofRun_ne_ok_hole : ofRun y ≠ .ok .hole := by
  unfold ofRun
  split
  case h_2 v hv => simpa using hv
  all_goals simp

end Answers

variable [Code C] {m : Machine C σ} {e : Expr C} {s : σ}

theorem eval_ne_ok_hole (m : Machine C σ) (e : Expr C) (s : σ) : (e.eval m s).value ≠ .ok .hole := by
  induction course m e s
  case macroName => exact ofExpansion_ne_ok_hole
  case test hv _ _ =>
    rw [eval_cond_of_error hv]
    nofun
  case branch hv _ _ _ hi =>
    rw [eval_cond_of_ok hv]
    exact hi
  case callee hv _ _ =>
    rw [eval_call_of_error hv]
    nofun
  case run hv _ _ =>
    rw [eval_call_of_lambda hv]
    exact ofRun_ne_ok_hole
  case notCallable hv hl _ _ =>
    rw [eval_call_of_ok hv hl]
    nofun
  all_goals nofun

theorem exists_value_or_fault (hw : e.isWhole) :
    (∃ v, (e.eval m s).value = .ok v ∧ v ≠ .hole) ∨
      ∃ stop f, (e.eval m s).value = .error stop ∧ stop.fault? = some f := by
  cases hv : (e.eval m s).value
  case ok v =>
    exact .inl ⟨v, rfl, fun hh => eval_ne_ok_hole m e s (hh ▸ hv)⟩
  case error stop =>
    cases stop
    case quit => exact .inr ⟨.quit, _, rfl, rfl⟩
    case failed f => exact .inr ⟨.failed f, _, rfl, rfl⟩
    case hole => exact absurd hv (eval_ne_hole e hw)

theorem whole_of_read_evaluates_and_encodes (compile : Bytes → Except Fault C) :
    (∀ text e, read compile text = .ok e → e.isWhole) ∧
    ∀ e : Expr C, e.isWhole →
      (∀ {σ : Type} (m : Machine C σ) (s : σ),
        (∃ v, (e.eval m s).value = .ok v ∧ v ≠ .hole) ∨
          ∃ stop f, (e.eval m s).value = .error stop ∧ stop.fault? = some f) ∧
      ((∃ bytes, Wire.encode e = .ok bytes) ↔
        ∀ code ∈ e.codes, ∃ bytes, Code.marshal code = .ok bytes) := by
  refine ⟨fun text e => isWhole_of_read, fun e hw => ⟨fun m s => exists_value_or_fault hw, ?_⟩⟩
  rw [Wire.exists_encode_iff, and_iff_right hw]

-- The machine answers each run with a hole, first in a test and then in the end.
theorem whole_of_read_evaluates_and_encodes_holes :
    let script : Script := { codes := [("g", "+")], answer := fun _ _ => .ok .hole }
    let text : Bytes := "(?(`f')'b'@g~ 'a')"
    ∃ e, read Script.compile text = .ok e ∧ e.isWhole ∧
      (e.eval script.machine []).state = [.run "f" [], .expand "g", .run "+" [.str "a"]] ∧
      ((∃ v, (e.eval script.machine []).value = .ok v ∧ v ≠ .hole) ∨
        ∃ stop f, (e.eval script.machine []).value = .error stop ∧ stop.fault? = some f) ∧
      ∃ bytes, Wire.encode e = .ok bytes := by
  intro script text
  obtain ⟨hr, h⟩ := whole_of_read_evaluates_and_encodes Script.compile
  have he : read Script.compile text = .ok
      (.call (.cond (.call (.lambda "f") []) (.str "b") (.macroName "g")) [.str "a"]) :=
    (read_eq_readChars _ _).trans rfl
  have hw := hr text _ he
  exact ⟨_, he, hw, rfl, (h _ hw).left script.machine [], (h _ hw).right.mpr fun code _ => ⟨code, rfl⟩⟩

end TapeShell.Expr
