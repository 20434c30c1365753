import TapeShell.Proofs.Eval.Congruence
import TapeShell.Session.Hosted

namespace TapeShell

open Tape Session

-- A host that has a clock and nothing else. Its state is the number of times the clock has been read.
abbrev Clocked : Type → Type :=
  StateM Nat

namespace Clocked

def now (clock : Nat → Calendar.Instant) : Clocked Calendar.Instant :=
  fun n => (clock n, n + 1)

def reading (c : Deck.Config) : Hosted Clocked Calendar.Instant :=
  liftM (now c.clock)

end Clocked

def Deck.withReadings (n : Nat) (d : Deck) : Deck :=
  { d with readings := n }

-- `x` counts readings in its deck where `y` leaves that to the host, and they do the same otherwise.
def Action.HostedBy {α : Type} (x : Action Deck α) (y : Hosted Clocked α) : Prop :=
  ∀ d effects n, y (d, effects) n =
    let r := x (d.withReadings n)
    ((r.value, r.state.withReadings d.readings, effects ++ r.effects), r.state.readings)

namespace Action.HostedBy

theorem pure {α : Type} (a : α) : HostedBy (Pure.pure a) (Pure.pure a) := by
  intro d effects n
  exact congrArg (fun effects => ((a, d, effects), n)) (List.append_nil effects).symm

theorem emit (more : List Effect) : HostedBy (Acts.emit more) (Acts.emit more) :=
  fun _ _ _ => rfl

variable {α β : Type} {x : Action Deck α} {y : Hosted Clocked α}

theorem bind {f : α → Action Deck β} {g : α → Hosted Clocked β} (h : x.HostedBy y)
    (hf : ∀ a, (f a).HostedBy (g a)) : (x >>= f).HostedBy (y >>= g) := by
  intro d effects n
  calc (y >>= g) (d, effects) n
      _ = g (y (d, effects) n).1.1 (y (d, effects) n).1.2 (y (d, effects) n).2 := rfl
      _ = g (x (d.withReadings n)).value ((x (d.withReadings n)).state.withReadings d.readings,
            effects ++ (x (d.withReadings n)).effects) (x (d.withReadings n)).state.readings := by rw [h]
      _ = _ := by
        rw [hf]
        simp only [List.append_assoc]
        rfl

theorem get_bind {f : Deck → Action Deck β} {g : Deck → Hosted Clocked β}
    (h : ∀ d n, (f (d.withReadings n)).HostedBy (g d)) : (Acts.get >>= f).HostedBy (Acts.get >>= g) :=
  fun d effects n => h d n d effects n

theorem isCongruence : IsCongruence (Action Deck) (Hosted Clocked) HostedBy where
  pure := pure
  map f h := h.bind fun a => pure (f a)
  bind := bind

end Action.HostedBy

open TapeShell.Action (HostedBy)

theorem Wire.callIn_hostedBy (runner : Bytes → Exchange) (args : List (Expr Program)) :
    HostedBy (callIn runner args) (callIn runner args) := by
  rw [callIn, callIn]
  cases encodeArgs args
  case error => exact .pure _
  case ok input =>
    simp only
    cases (runner input).fault
    case none => exact (HostedBy.emit _).bind fun _ => .pure _
    case some => exact (HostedBy.emit _).bind fun _ => .pure _

namespace Deck

variable (c : Config)

theorem recordExpansion_hostedBy (name : Bytes) (code : Program) :
    HostedBy (recordExpansion (reading c) name code) (recordExpansion (Clocked.reading c) name code) :=
  fun _ _ _ => rfl

theorem recordExecution_hostedBy (code : Program) (args : List Bytes) (result : Bytes) :
    HostedBy (recordExecution (reading c) code args result)
      (recordExecution (Clocked.reading c) code args result) :=
  fun _ _ _ => rfl

theorem expandIn_hostedBy (name : Bytes) :
    HostedBy (expand c name) (expandIn (Clocked.reading c) c name) := by
  refine .get_bind fun d n => ?_
  have hm : meaning c (d.withReadings n) name = meaning c d name := rfl
  rw [hm]
  cases meaning c d name
  case code p => exact (recordExpansion_hostedBy c name p).bind fun _ => .pure _
  case notice => exact (HostedBy.emit _).bind fun _ => .pure _
  case quit => exact .pure _
  case unknown => exact .pure _

theorem runIn_hostedBy (code : Program) (args : List (Expr Program)) :
    HostedBy (run c code args) (runIn (Clocked.reading c) c code args) := by
  refine (Wire.callIn_hostedBy _ args).bind fun result => ?_
  cases result
  case error => exact .pure _
  case ok => exact (recordExecution_hostedBy c code _ _).bind fun _ => .pure _

theorem eval_hostedBy (e : Expr Program) :
    HostedBy (e.eval (machine c)) (e.eval (machineIn (Clocked.reading c) c)) :=
  Expr.eval_congr HostedBy.isCongruence (runIn_hostedBy c) e fun name _ => expandIn_hostedBy c name

end Deck

namespace Session

variable {ι : Type}

def Turn.withReadings (n : Nat) (t : Turn Deck) : Turn Deck :=
  { t with machine := t.machine.withReadings n }

def Ended.withReadings (n : Nat) (e : Ended Deck ι) : Ended Deck ι :=
  { e with machine := e.machine.withReadings n }

namespace Advance

def deck : Advance Deck ι → Deck
  | .ended e => e.machine
  | .goesOn _ d _ _ _ => d

def withReadings (n : Nat) : Advance Deck ι → Advance Deck ι
  | .ended e => .ended (e.withReadings n)
  | .goesOn s d source effects history => .goesOn s (d.withReadings n) source effects history

end Advance
end Session

namespace Hosted

variable (c : Deck.Config) (s : Session) (d : Deck) (n : Nat)

theorem evaluate_clocked (e : Expr Program) :
    evaluate (Clocked.reading c) c d e n =
      let r := e.eval (Deck.machine c) (d.withReadings n)
      (⟨r.value, r.state.withReadings d.readings, r.effects⟩, r.state.readings) := by
  have h := Deck.eval_hostedBy c e d [] n
  simp only [evaluate, bind, StateT.bind, h]
  rfl

theorem feed_clocked (line : Bytes) :
    feed (Clocked.reading c) c s d line n =
      let turn := s.feed (Deck.machine c) (d.withReadings n) line
      (turn.withReadings d.readings, turn.machine.readings) := by
  rw [feed, feedIn, feed_eq]
  have hc : (Deck.machine c).compile = Program.read := rfl
  rw [hc]
  cases Expr.read Program.read (s.buffer ++ line)
  case error f =>
    simp only
    cases f.holdsIncomplete <;> cases f.holdsEmpty <;> rfl
  case ok e =>
    simp only [bind, StateT.bind, evaluate_clocked c]
    rfl

variable {ι : Type} [LineSource ι] (prompts : Prompts) (source : ι)

def round : Clocked (Advance Deck ι) :=
  advanceIn (fun prompt source => pure (LineSource.ask prompt source)) (feed (Clocked.reading c) c) prompts
    s d source

-- A round that reads the clock of its host is a round of the session that keeps count of the readings.
theorem round_eq :
    round c s d prompts source n =
      let a := advance (Deck.machine c) prompts s (d.withReadings n) source
      (a.withReadings d.readings, a.deck.readings) := by
  rw [round, advanceIn, pure_bind]
  cases ha : (LineSource.ask (prompts.select s.phase) source).answer
  case error =>
    rw [advance_of_error ha]
    rfl
  case ok line =>
    rw [advance_of_ok ha]
    simp only [bind, StateT.bind, feed_clocked, Turn.withReadings]
    cases (s.feed (Deck.machine c) (d.withReadings n) line).quit <;> rfl

-- Rounds on a host from a reading of the clock to another, the last of which ends the session.
inductive Conversation (c : Deck.Config) (prompts : Prompts) :
    Session → Deck → ι → Nat → Ended Deck ι → Nat → Prop
  | ended {s d source n e n'} : round c s d prompts source n = (.ended e, n') →
    Conversation c prompts s d source n e n'
  | goesOn {s d source n s' d' source' effects history n' e n''} :
    round c s d prompts source n = (.goesOn s' d' source' effects history, n') →
    Conversation c prompts s' d' source' n' e n'' →
    Conversation c prompts s d source n (e.after effects history) n''

theorem conversation_run :
    let e := run (Deck.machine c) prompts s (d.withReadings n) source
    Conversation c prompts s d source n (e.withReadings d.readings) e.machine.readings := by
  generalize hd : d.withReadings n = d₀
  fun_induction run (Deck.machine c) prompts s d₀ source generalizing d n
  case case1 s d₀ source e h =>
    have hr := round_eq c s d n prompts source
    rw [hd, h] at hr
    exact .ended hr
  case case2 s d₀ source s' d' source' effects history h _ ih =>
    have hr := round_eq c s d n prompts source
    rw [hd, h] at hr
    exact .goesOn hr (ih (d'.withReadings d.readings) d'.readings rfl)

end Hosted
end TapeShell
