import TapeShell.Proofs.Eval.Requests
import TapeShell.Proofs.Session.Pieces

namespace TapeShell.Session

variable {C σ : Type}

def written (effects : List (Origin × Effect)) : List Bytes :=
  effects.filterMap fun
    | (.session, .write text) => some text
    | _ => none

theorem written_append (es fs : List (Origin × Effect)) :
    written (es ++ fs) = written es ++ written fs :=
  List.filterMap_append ..

theorem written_changePhase (source target : Phase) (message : Bytes) :
    written (changePhase source target message) = [] := by
  rw [changePhase]
  split <;> rfl

theorem written_machine (effects : List Effect) : written (effects.map (.machine, ·)) = [] := by
  simp [written]

variable [Code C]

theorem conclude_quit_iff {x : Except Stop (Expr C)} :
    (conclude x).1 ↔ x = .error .quit ∨ ∃ f, x = .error (.failed f) ∧ f.holdsQuit := by
  rcases x with stop | v
  case ok => simp [conclude]
  case error =>
    cases stop
    case quit => exact iff_of_true rfl (.inl rfl)
    case hole => simp [conclude, Stop.fault?]
    case failed f =>
      have he : (Fault.evaluation f).holdsQuit = f.holdsQuit := rfl
      by_cases hq : f.holdsQuit <;> simp [conclude, Stop.fault?, he, hq]

theorem conclude_failed {f : Fault} (h : ¬f.holdsQuit) :
    conclude (.error (.failed f) : Except Stop (Expr C)) =
      (false, [answer ("failed to calculate: " ++ (Fault.evaluation f).message)]) :=
  if_neg h

variable {m : Machine C σ} {s : Session} {state : σ} {line : Bytes}

theorem feed_quit_of_error {f : Fault} (h : Expr.read m.compile (s.buffer ++ line) = .error f) :
    (s.feed m state line).quit = false := by
  rw [feed_eq, h]
  simp only
  repeat' split
  all_goals rfl

theorem feed_quit_iff_conclude :
    (s.feed m state line).quit ↔
      ∃ e, Expr.read m.compile (s.buffer ++ line) = .ok e ∧ (conclude (e.eval m state).value).1 := by
  cases h : Expr.read m.compile (s.buffer ++ line)
  case error => simp [feed_quit_of_error h]
  case ok e => simp [feed_of_ok h]

-- The signal to quit ends the session also where a run is answered with it, although an evaluation that
-- fails is said to end nothing but itself.
theorem feed_quit_iff_asks (m : Machine C σ) (s : Session) (state : σ) (line : Bytes) :
    ((s.feed m state line).quit ↔
      ∃ e, Expr.read m.compile (s.buffer ++ line) = .ok e ∧
        ((e.eval m state).value = .error .quit ∨
          ∃ f, (e.eval m state).value = .error (.failed f) ∧ f.holdsQuit)) ∧
    (∀ e, Expr.read m.compile (s.buffer ++ line) = .ok e →
      ((e.eval m state).value = .error .quit ↔
        ∃ name t f, e.Asks m state (.expand name) t ∧ (m.expand name t).value = .error f ∧
          f.holdsQuit) ∧
      ∀ f, (e.eval m state).value = .error (.failed f) →
        (f.holdsQuit ↔
          ∃ code args t g, e.Asks m state (.run code args) t ∧ (m.run code args t).value = .error g ∧
            g.holdsQuit) ∧
        (¬f.holdsQuit →
          (s.feed m state line).quit = false ∧
          (s.feed m state line).session.phase = .prompting ∧
          written (s.feed m state line).effects =
            ["failed to calculate: " ++ (Fault.evaluation f).message ++ "\n"])) := by
  refine ⟨?quit, fun e he => ⟨Expr.eval_eq_quit_iff, fun f hf => ⟨?holds, ?answers⟩⟩⟩
  case quit => simp only [feed_quit_iff_conclude, conclude_quit_iff]
  case holds => exact Expr.holdsQuit_iff_of_eval_eq_failed hf
  case answers =>
    intro hq
    rw [feed_of_ok he, hf, conclude_failed hq]
    refine ⟨rfl, rfl, ?_⟩
    simp only [written_append, written_changePhase, written_machine]
    rfl

theorem feed_quit_of_run_signal :
    Expr.read Script.compile "(`+')" = .ok (.call (.lambda "+") []) ∧
    ((Expr.call (.lambda (Bytes.ofString "+")) []).eval
      (Script.machine { answer := fun _ _ => .error (.signal .quit) }) []).value =
        .error (.failed (.context "runtime error: " (.signal .quit))) ∧
    (feed (Script.machine { answer := fun _ _ => .error (.signal .quit) }) {} [] "(`+')").quit = true ∧
    written (feed (Script.machine { answer := fun _ _ => .error (.signal .quit) }) {} []
      "(`+')").effects = [] := by
  have hr : Expr.read Script.compile "(`+')" = .ok (.call (.lambda "+") []) :=
    (Expr.read_eq_readChars _ _).trans rfl
  have hturn : feed (Script.machine { answer := fun _ _ => .error (.signal .quit) }) {} [] "(`+')" = _ :=
    feed_of_ok hr
  rw [hturn]
  exact ⟨hr, rfl, rfl, rfl⟩

end TapeShell.Session
