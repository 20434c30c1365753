import Mathlib.Logic.Relation
import TapeShell.Machine.Scripted
import TapeShell.Wire

namespace TapeShell.Wire

structure Channel (capacity : Nat) where
  buffer : Bytes
  closed : Bool
  fits   : buffer.length ≤ capacity

namespace Channel

variable {capacity : Nat}

def empty : Channel capacity where
  buffer := []
  closed := false
  fits   := Nat.zero_le capacity

structure Accepts (c : Channel capacity) : Prop where
  isOpen : c.closed = false
  room   : c.buffer.length < capacity

def push (c : Channel capacity) (b : UInt8) (h : c.Accepts) : Channel capacity where
  buffer := c.buffer ++ [b]
  closed := c.closed
  fits   := by rw [List.length_append]; exact h.room

def pop (c : Channel capacity) : Channel capacity where
  buffer := c.buffer.tail
  closed := c.closed
  fits   := by rw [List.length_tail]; exact Nat.le_trans (Nat.sub_le ..) c.fits

def close (c : Channel capacity) : Channel capacity :=
  { c with closed := true }

@[simp]
theorem empty_buffer : (empty : Channel capacity).buffer = [] :=
  rfl

variable (c : Channel capacity)

@[simp]
theorem push_buffer (b : UInt8) (h : c.Accepts) : (c.push b h).buffer = c.buffer ++ [b] :=
  rfl

@[simp]
theorem push_closed (b : UInt8) (h : c.Accepts) : (c.push b h).closed = c.closed :=
  rfl

@[simp]
theorem pop_buffer : c.pop.buffer = c.buffer.tail :=
  rfl

@[simp]
theorem pop_closed : c.pop.closed = c.closed :=
  rfl

@[simp]
theorem close_buffer : c.close.buffer = c.buffer :=
  rfl

@[simp]
theorem close_closed : c.close.closed = true :=
  rfl

end Channel

-- What a runner does next may depend on what it received, which is nothing at the end of the input.
inductive Runner where
  | send (b : UInt8) (next : Runner)
  | receive (next : Option UInt8 → Runner)
  | finish (fault : Option Fault)

namespace Runner

def exchange : Runner → Bytes → Exchange
  | send b next, input =>
    let rest := next.exchange input
    ⟨b :: rest.sent, rest.fault⟩
  | receive next, []         => (next none).exchange []
  | receive next, b :: input => (next (some b)).exchange input
  | finish fault, _          => ⟨[], fault⟩

-- The number of steps that are left of a call: each byte is sent and drained, and in the end the runner
-- returns, the output is closed and the fault is reported.
def work : Runner → Bytes → Nat
  | send _ next, input       => next.work input + 2
  | receive next, []         => (next none).work [] + 1
  | receive next, b :: input => (next (some b)).work input + 1
  | finish _, _              => 3

end Runner

def callResult {C : Type} (sent : Bytes) : Option Fault → Except Fault (Expr C)
  | none       => decodeResult sent
  | some fault => .error (.context "failed to start vm: " fault)

namespace Schedule

variable {C : Type} {n capacity : Nat}

inductive Caller (C : Type) where
  | draining (raw : Bytes)
  | waiting (raw : Bytes)
  | returned (raw : Bytes) (result : Except Fault (Expr C))

namespace Caller

def drained : Caller C → Bytes
  | draining raw | waiting raw | returned raw _ => raw

def hasDrained : Caller C → Bool
  | draining _               => false
  | waiting _ | returned _ _ => true

def work : Caller C → Nat
  | draining _   => 2
  | waiting _    => 1
  | returned _ _ => 0

end Caller

-- A runner does not close the output itself; that is done as soon as it has finished, and only then
-- its fault is reported to the caller.
inductive Task where
  | running (runner : Runner)
  | closing (fault : Option Fault)
  | reporting (fault : Option Fault)
  | returned (fault : Option Fault)

namespace Task

def hasClosed : Task → Bool
  | running _ | closing _    => false
  | reporting _ | returned _ => true

def exchange : Task → Bytes → Exchange
  | running runner, input => runner.exchange input
  | closing fault, _ | reporting fault, _ | returned fault, _ => ⟨[], fault⟩

def work : Task → Bytes → Nat
  | running runner, input => runner.work input
  | closing _, _          => 2
  | reporting _, _        => 1
  | returned _, _         => 0

end Task

structure Live (C : Type) (n capacity : Nat) where
  caller : Caller C
  task   : Task
  input  : Channel n
  output : Channel capacity
  sent   : Bytes

inductive State (C : Type) (n capacity : Nat) where
  | filling (input : Channel n) (left : Bytes)
  | filled (input : Channel n)
  | live (l : Live C n capacity)

inductive Step (runner : Runner) : State C n capacity → State C n capacity → Prop
  | fill (h : input.Accepts) :
    Step runner (.filling input (b :: left)) (.filling (input.push b h) left)
  | closeInput : Step runner (.filling input []) (.filled input.close)
  | start : Step runner (.filled input) (.live ⟨.draining [], .running runner, input, .empty, []⟩)
  | drain : output.buffer = b :: bs →
    Step runner (.live ⟨.draining raw, task, input, output, sent⟩)
      (.live ⟨.draining (raw ++ [b]), task, input, output.pop, sent⟩)
  | drained : output.buffer = [] → output.closed = true →
    Step runner (.live ⟨.draining raw, task, input, output, sent⟩)
      (.live ⟨.waiting raw, task, input, output, sent⟩)
  | wait :
    Step runner (.live ⟨.waiting raw, .returned fault, input, output, sent⟩)
      (.live ⟨.returned raw (callResult raw fault), .returned fault, input, output, sent⟩)
  | send (h : output.Accepts) :
    Step runner (.live ⟨caller, .running (.send b next), input, output, sent⟩)
      (.live ⟨caller, .running next, input, output.push b h, sent ++ [b]⟩)
  | receive : input.buffer = b :: bs →
    Step runner (.live ⟨caller, .running (.receive next), input, output, sent⟩)
      (.live ⟨caller, .running (next (some b)), input.pop, output, sent⟩)
  | receiveEnd : input.buffer = [] → input.closed = true →
    Step runner (.live ⟨caller, .running (.receive next), input, output, sent⟩)
      (.live ⟨caller, .running (next none), input, output, sent⟩)
  | finish :
    Step runner (.live ⟨caller, .running (.finish fault), input, output, sent⟩)
      (.live ⟨caller, .closing fault, input, output, sent⟩)
  | closeOutput :
    Step runner (.live ⟨caller, .closing fault, input, output, sent⟩)
      (.live ⟨caller, .reporting fault, input, output.close, sent⟩)
  | report :
    Step runner (.live ⟨caller, .reporting fault, input, output, sent⟩)
      (.live ⟨caller, .returned fault, input, output, sent⟩)

namespace State

def start (C : Type) (capacity : Nat) (input : Bytes) : State C input.length capacity :=
  .filling .empty input

def sent : State C n capacity → Bytes
  | filling .. | filled _ => []
  | live l                => l.sent

def drained : State C n capacity → Bytes
  | filling .. | filled _ => []
  | live l                => l.caller.drained

def undrained : State C n capacity → Bytes
  | filling .. | filled _ => []
  | live l                => l.output.buffer

inductive Returned : State C n capacity → Except Fault (Expr C) → Prop
  | intro : l.caller = .returned raw result → Returned (.live l) result

inductive Reported : State C n capacity → Option Fault → Prop
  | intro : l.task = .returned fault → Reported (.live l) fault

def Ended (s : State C n capacity) : Prop :=
  (∃ result, s.Returned result) ∧ ∃ fault, s.Reported fault

def work (runner : Runner) : State C n capacity → Nat
  | filling input left => runner.work (input.buffer ++ left) + left.length + 4
  | filled input       => runner.work input.buffer + 3
  | live l             => l.task.work l.input.buffer + l.output.buffer.length + l.caller.work

end State

-- Every step is one that has to be made, so all the ways to run a call are equally long.
theorem Step.work_eq {runner : Runner} {s t : State C n capacity} (h : Step runner s t) :
    s.work runner = t.work runner + 1 := by
  cases h
  case fill => simp [State.work]; omega
  case closeInput => simp [State.work]
  case start => simp [State.work, Task.work, Caller.work]
  case drain h => simp [State.work, Caller.work, h]; omega
  case drained => simp [State.work, Caller.work]
  case wait => simp [State.work, Caller.work]
  case send => simp [State.work, Task.work, Runner.work]; omega
  case receive h => simp [State.work, Task.work, Runner.work, h]; omega
  case receiveEnd h _ => simp [State.work, Task.work, Runner.work, h]; omega
  case finish => simp [State.work, Task.work, Runner.work]; omega
  case closeOutput => simp [State.work, Task.work]; omega
  case report => simp [State.work, Task.work]; omega

-- What has been sent, followed by what is still to be sent, is the same at all times.
structure Live.Invariant (total : Exchange) (l : Live C n capacity) : Prop where
  input    : l.input.closed = true
  output   : l.output.closed = l.task.hasClosed
  drained  : l.caller.drained ++ l.output.buffer = l.sent
  sent     : l.sent ++ (l.task.exchange l.input.buffer).sent = total.sent
  fault    : (l.task.exchange l.input.buffer).fault = total.fault
  ended    : l.caller.hasDrained = true → l.output.buffer = [] ∧ l.output.closed = true
  returned : ∀ raw result, l.caller = .returned raw result →
    ∃ fault, l.task = .returned fault ∧ result = callResult raw fault

theorem Live.Invariant.caller_ne_returned {total : Exchange} {l : Live C n capacity}
    (hi : l.Invariant total) (ht : ∀ fault, l.task ≠ .returned fault) (raw : Bytes)
    (result : Except Fault (Expr C)) : l.caller ≠ .returned raw result := by
  intro hr
  have ⟨fault, hf, _⟩ := hi.returned raw result hr
  exact ht fault hf

def State.Invariant (runner : Runner) (input : Bytes) : State C n capacity → Prop
  | .filling ch left => ch.buffer ++ left = input ∧ ch.closed = false
  | .filled ch       => ch.buffer = input ∧ ch.closed = true
  | .live l          => l.Invariant (runner.exchange input)

variable {runner : Runner} {input : Bytes}

theorem Step.invariant {s t : State C n capacity} (h : Step runner s t)
    (hi : s.Invariant runner input) : t.Invariant runner input := by
  cases h
  case fill => simpa [State.Invariant] using hi
  case closeInput => simpa [State.Invariant] using hi.left
  case start =>
    have ⟨hb, hc⟩ := hi
    exact {
      input    := hc
      output   := rfl
      drained  := rfl
      sent     := by simp [Task.exchange, hb]
      fault    := by simp [Task.exchange, hb]
      ended    := nofun
      returned := nofun }
  case drain hb =>
    exact { hi with
      drained  := by simpa [Caller.drained, hb] using hi.drained
      ended    := nofun
      returned := nofun }
  case drained hb hc => exact { hi with ended := fun _ => ⟨hb, hc⟩, returned := nofun }
  case wait =>
    exact { hi with
      ended    := fun _ => hi.ended rfl
      returned := by
        rintro _ _ ⟨⟩
        exact ⟨_, rfl, rfl⟩ }
  -- From here on it is the task that moves.
  all_goals have hr {raw} {result} := Live.Invariant.caller_ne_returned hi nofun raw result
  case send ha =>
    exact { hi with
      drained  := by
        have hd := hi.drained
        simp only at hd
        simp [← hd]
      sent     := by simpa [Task.exchange, Runner.exchange] using hi.sent
      ended    := by
        intro hd
        have ⟨_, hc⟩ := hi.ended hd
        exact absurd hc (by simp [ha.isOpen])
      returned := fun _ _ h => absurd h hr }
  case receive hb =>
    exact { hi with
      sent     := by simpa [Task.exchange, Runner.exchange, hb] using hi.sent
      fault    := by simpa [Task.exchange, Runner.exchange, hb] using hi.fault
      returned := fun _ _ h => absurd h hr }
  case receiveEnd hb _ =>
    exact { hi with
      sent     := by simpa [Task.exchange, Runner.exchange, hb] using hi.sent
      fault    := by simpa [Task.exchange, Runner.exchange, hb] using hi.fault
      returned := fun _ _ h => absurd h hr }
  case finish => exact { hi with returned := fun _ _ h => absurd h hr }
  case closeOutput =>
    exact { hi with
      output   := rfl
      ended    := fun hd => ⟨(hi.ended hd).left, rfl⟩
      returned := fun _ _ h => absurd h hr }
  case report => exact { hi with returned := fun _ _ h => absurd h hr }

theorem invariant_of_reachable {s : State C input.length capacity}
    (h : Relation.ReflTransGen (Step runner) (.start C capacity input) s) :
    s.Invariant runner input := by
  induction h
  case refl => exact ⟨rfl, rfl⟩
  case tail _ h hi => exact h.invariant hi

section Progress

theorem State.Invariant.accepts {ch : Channel input.length} {b : UInt8} {left : Bytes}
    (hi : (State.filling ch (b :: left) : State C _ capacity).Invariant runner input) : ch.Accepts := by
  have ⟨hb, hc⟩ := hi
  have hl := congrArg List.length hb
  rw [List.length_append, List.length_cons] at hl
  exact ⟨hc, by omega⟩

theorem Live.Invariant.exists_drain {total : Exchange} {l : Live C n capacity} (hi : l.Invariant total)
    (hb : l.output.buffer ≠ []) : ∃ t, Step runner (.live l) t := by
  have ⟨caller, task, input, output, sent⟩ := l
  have ⟨b, bs, hb'⟩ := List.exists_cons_of_ne_nil hb
  cases caller
  case draining => exact ⟨_, .drain hb'⟩
  all_goals exact absurd (hi.ended rfl).left hb

theorem Live.Invariant.exists_step_of_running {total : Exchange} {l : Live C n capacity}
    (hi : l.Invariant total) (hc : 0 < capacity) {r : Runner} (ht : l.task = .running r) :
    ∃ t, Step runner (.live l) t := by
  have ⟨caller, task, input, output, sent⟩ := l
  cases ht
  cases r
  case send =>
    -- A full channel is not empty, so it is the caller's turn then.
    by_cases hr : output.buffer.length < capacity
    case pos => exact ⟨_, .send ⟨hi.output, hr⟩⟩
    case neg =>
      refine hi.exists_drain fun hb => ?_
      simp only at hb
      simp [hb] at hr
      omega
  case receive =>
    cases hb : input.buffer
    case nil => exact ⟨_, .receiveEnd hb hi.input⟩
    case cons => exact ⟨_, .receive hb⟩
  case finish => exact ⟨_, .finish⟩

theorem State.Invariant.exists_step (hc : 0 < capacity) {s : State C input.length capacity}
    (hi : s.Invariant runner input) (hn : ¬s.Ended) : ∃ t, Step runner s t := by
  cases s
  case filling ch left =>
    cases left
    case nil => exact ⟨_, .closeInput⟩
    case cons => exact ⟨_, .fill hi.accepts⟩
  case filled => exact ⟨_, .start⟩
  case live l =>
    have ⟨caller, task, input, output, sent⟩ := l
    cases task
    case running r => exact Live.Invariant.exists_step_of_running hi hc rfl
    case closing => exact ⟨_, .closeOutput⟩
    case reporting => exact ⟨_, .report⟩
    case returned fault =>
      cases caller
      case draining =>
        cases hb : output.buffer
        case nil => exact ⟨_, .drained hb hi.output⟩
        case cons => exact ⟨_, .drain hb⟩
      case waiting => exact ⟨_, .wait⟩
      case returned => exact absurd ⟨⟨_, .intro rfl⟩, ⟨_, .intro rfl⟩⟩ hn

theorem State.Invariant.exists_ended (hc : 0 < capacity) {s : State C input.length capacity}
    (hi : s.Invariant runner input) : ∃ t, Relation.ReflTransGen (Step runner) s t ∧ t.Ended := by
  induction hw : s.work runner using Nat.strongRecOn generalizing s
  case ind w hs =>
    by_cases he : s.Ended
    case pos => exact ⟨s, .refl, he⟩
    case neg =>
      have ⟨t, h⟩ := hi.exists_step hc he
      have hlt : t.work runner < w := by have := h.work_eq; omega
      have ⟨u, hu, hend⟩ := hs _ hlt (h.invariant hi) rfl
      exact ⟨u, .head h hu, hend⟩

end Progress

theorem State.Invariant.drained_append_undrained {s : State C n capacity}
    (hi : s.Invariant runner input) : s.drained ++ s.undrained = s.sent := by
  cases s
  case live => exact hi.drained
  all_goals rfl

theorem State.Invariant.reported_of_returned {s : State C n capacity} (hi : s.Invariant runner input)
    {result : Except Fault (Expr C)} (h : s.Returned result) :
    ∃ fault, s.Reported fault ∧ result = callResult s.sent fault ∧
      runner.exchange input = ⟨s.sent, fault⟩ := by
  cases h
  case intro l raw hr =>
    have ⟨fault, ht, hres⟩ := hi.returned raw result hr
    have ⟨hb, _⟩ := hi.ended (by rw [hr]; rfl)
    have hraw : raw = l.sent := by simpa [hr, Caller.drained, hb] using hi.drained
    have hsent : l.sent = (runner.exchange input).sent := by simpa [ht, Task.exchange] using hi.sent
    have hfault : fault = (runner.exchange input).fault := by simpa [ht, Task.exchange] using hi.fault
    refine ⟨fault, .intro ht, ?_, ?_⟩
    · rw [hres, hraw, State.sent]
    · rw [State.sent, hsent, hfault]

theorem call_value {σ : Type} [Code C] {args : List (Expr C)} (h : encodeArgs args = .ok input)
    (runner : Bytes → Exchange) (state : σ) :
    (call runner args state).value = callResult (runner input).sent (runner input).fault := by
  simp only [call, callIn, h]
  cases (runner input).fault <;> rfl

theorem call_of_every_schedule {σ : Type} [Code C] {args : List (Expr C)} {input : Bytes}
    (he : encodeArgs args = .ok input) (hc : 0 < capacity) (runner : Runner)
    {s : State C input.length capacity}
    (hs : Relation.ReflTransGen (Step runner) (.start C capacity input) s) :
    (∀ ch b left, s = .filling ch (b :: left) → ch.Accepts) ∧
    s.drained ++ s.undrained = s.sent ∧
    (¬s.Ended → ∃ t, Step runner s t) ∧
    (∃ t, Relation.ReflTransGen (Step runner) s t ∧ t.Ended) ∧
    ∀ result, s.Returned result →
      ∃ fault, s.Reported fault ∧ runner.exchange input = ⟨s.sent, fault⟩ ∧
        (fault = none → result = decodeResult s.sent) ∧
        (∀ f, fault = some f → result = .error (.context "failed to start vm: " f)) ∧
        ∀ state : σ, (call runner.exchange args state).value = result := by
  have hi := invariant_of_reachable hs
  refine ⟨?fills, hi.drained_append_undrained, hi.exists_step hc, hi.exists_ended hc, ?returns⟩
  case fills =>
    rintro ch b left rfl
    exact hi.accepts
  case returns =>
    intro result hr
    have ⟨fault, hf, hres, hx⟩ := hi.reported_of_returned hr
    refine ⟨fault, hf, hx, ?_, ?_, ?_⟩
    · rintro rfl
      exact hres
    · rintro f rfl
      exact hres
    · intro state
      rw [call_value he, hx, hres]

-- The output has room for one byte only, of the two that are sent.
theorem call_of_every_schedule_narrow_output :
    encodeArgs ([] : List (Expr Bytes)) = .ok [0x6C, 0x65] ∧
    ∃ t : State Bytes 2 1,
      Relation.ReflTransGen (Step (.receive fun _ => .send 0x30 (.send 0x3A (.finish none))))
        (.start Bytes 1 [0x6C, 0x65]) t ∧
      t.Returned (.ok (.str [])) := by
  have he : encodeArgs ([] : List (Expr Bytes)) = .ok [0x6C, 0x65] := rfl
  have ⟨_, _, _, ⟨t, ht, ⟨result, hr⟩, _⟩, _⟩ :=
    call_of_every_schedule (σ := Unit) he Nat.one_pos
      (.receive fun _ => .send 0x30 (.send 0x3A (.finish none))) .refl
  have ⟨_, _, _, _, hret⟩ := call_of_every_schedule (σ := Unit) he Nat.one_pos _ ht
  have ⟨fault, _, hx, hok, _⟩ := hret result hr
  have ⟨hsent, hfault⟩ := Exchange.mk.inj hx
  refine ⟨he, t, ht, ?_⟩
  rw [hok hfault.symm, ← hsent] at hr
  exact hr

end Schedule
end TapeShell.Wire
