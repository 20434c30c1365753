import TapeShell.Session.Basic
import TapeShell.Session.Lines

namespace TapeShell.Session

structure Prompts where
  primary : Bytes := "> "
  continuation : Bytes := ".. "
  deriving DecidableEq, Repr

namespace Prompts

def select (p : Prompts) : Phase → Bytes
  | .prompting => p.primary
  | .continuing => p.continuation

end Prompts

structure Ended (σ ι : Type) where
  -- Why there were no more lines; a session that quits ends without a fault.
  fault : Option Fault
  session : Session
  machine : σ
  source : ι
  effects : List (Origin × Effect)
  history : List Bytes

namespace Ended

variable {σ ι : Type}

def after (effects : List (Origin × Effect)) (history : List Bytes) (e : Ended σ ι) : Ended σ ι :=
  { e with effects := effects ++ e.effects, history := history ++ e.history }

end Ended

variable {C σ ι : Type} [Code C] [LineSource ι]

-- What a round leads to: the end, or another round.
inductive Advance (σ ι : Type) where
  | ended (e : Ended σ ι)
  | goesOn (s : Session) (state : σ) (source : ι) (effects : List (Origin × Effect)) (history : List Bytes)

def advanceIn {b : Type → Type} [Monad b] (ask : (prompt : Bytes) → ι → b (Asked ι))
    (feed : Session → σ → (line : Bytes) → b (Turn σ)) (prompts : Prompts) (s : Session) (state : σ)
    (source : ι) : b (Advance σ ι) := do
  let asked ← ask (prompts.select s.phase) source
  let prompted : List (Origin × Effect) := [(.lines, .write asked.written)]
  match asked.answer with
  | .error f => return .ended ⟨some f, s, state, asked.source, prompted, []⟩
  | .ok line =>
    let turn ← feed s state line
    let effects := prompted ++ turn.effects
    let history := turn.history.toList
    if turn.quit then
      return .ended ⟨none, turn.session, turn.machine, asked.source, effects, history⟩
    else
      return .goesOn turn.session turn.machine asked.source effects history

def advance (m : Machine C σ) (prompts : Prompts) (s : Session) (state : σ) (source : ι) : Advance σ ι :=
  advanceIn (b := Id) LineSource.ask (feed m) prompts s state source

section Advance

variable {m : Machine C σ} {prompts : Prompts} {s : Session} {state : σ} {source : ι}

theorem advance_of_error {f : Fault}
    (h : (LineSource.ask (prompts.select s.phase) source).answer = .error f) :
    advance m prompts s state source =
      .ended ⟨some f, s, state, (LineSource.ask (prompts.select s.phase) source).source,
        [(.lines, .write (LineSource.ask (prompts.select s.phase) source).written)], []⟩ := by
  simp only [advance, advanceIn, bind, h]
  rfl

theorem advance_of_ok {line : Bytes}
    (h : (LineSource.ask (prompts.select s.phase) source).answer = .ok line) :
    advance m prompts s state source =
      let asked := LineSource.ask (prompts.select s.phase) source
      let turn := s.feed m state line
      let effects := (.lines, .write asked.written) :: turn.effects
      if turn.quit then
        .ended ⟨none, turn.session, turn.machine, asked.source, effects, turn.history.toList⟩
      else
        .goesOn turn.session turn.machine asked.source effects turn.history.toList := by
  simp only [advance, advanceIn, bind, h]
  rfl

theorem remaining_lt_of_advance {s' : Session} {state' : σ} {source' : ι}
    {effects : List (Origin × Effect)} {history : List Bytes}
    (h : advance m prompts s state source = .goesOn s' state' source' effects history) :
    LineSource.remaining source' < LineSource.remaining source := by
  cases ha : (LineSource.ask (prompts.select s.phase) source).answer
  case error =>
    rw [advance_of_error ha] at h
    cases h
  case ok line =>
    rw [advance_of_ok ha] at h
    simp only at h
    split at h <;> cases h
    exact LineSource.remaining_lt ha

end Advance

def run (m : Machine C σ) (prompts : Prompts) (s : Session) (state : σ) (source : ι) : Ended σ ι :=
  match h : advance m prompts s state source with
  | .ended e => e
  | .goesOn s state source effects history =>
    have := remaining_lt_of_advance h
    (run m prompts s state source).after effects history
termination_by LineSource.remaining source

end TapeShell.Session
