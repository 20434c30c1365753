import TapeShell.Eval
import TapeShell.Expr.Reader

namespace TapeShell

inductive Phase where
  | prompting
  | continuing
  deriving DecidableEq, Repr

namespace Phase

def name : Phase → Bytes
  | .prompting => "prompting"
  | .continuing => "continuing"

def nameOf (n : Int) : Bytes :=
  if n = 0 then Phase.prompting.name
  else if n = 1 then Phase.continuing.name
  else "State(" ++ Bytes.ofInt n ++ ")"

end Phase

inductive Origin where
  | session
  | machine
  | lines
  deriving DecidableEq, Repr

structure Session where
  phase : Phase := .prompting
  buffer : Bytes := []
  deriving DecidableEq, Repr

namespace Session

structure Turn (σ : Type) where
  quit : Bool
  session : Session
  machine : σ
  effects : List (Origin × Effect)
  history : Option Bytes

def changePhase (source target : Phase) (message : Bytes) : List (Origin × Effect) :=
  if source = target then []
  else [(.session, .log (.debug message [("from", .text source.name), ("to", .text target.name)]))]

def answer (line : Bytes) : Origin × Effect :=
  (.session, .write (line ++ "\n"))

def report (f : Fault) : Bytes :=
  let unexpected := f.chain.findSome? fun
    | .unexpected c => some (Fault.unexpected c)
    | _ => none
  let uncompiled := f.chain.findSome? fun
    | .uncompiled cause => some cause
    | _ => none
  let trailing := f.chain.findSome? fun
    | .trailing c => some (Fault.trailing c)
    | _ => none
  match unexpected, uncompiled, trailing with
  | some f, _, _ => "failed to parse expression: " ++ f.message
  | none, some f, _ => "compile error: " ++ f.message
  | none, none, some f => "error: " ++ f.message
  | none, none, none => "error: " ++ f.message

def conclude {C : Type} [Code C] : Except Stop (Expr C) → Bool × List (Origin × Effect)
  | .ok v => (false, [answer v.display])
  | .error stop =>
    match stop.fault? with
    | none => (false, [])
    | some f =>
      if f.holdsQuit then (true, [(.session, .log (.debug "quit"))])
      else (false, [answer ("failed to calculate: " ++ f.message)])

variable {C σ : Type} [Code C]

def feedIn {b : Type → Type} [Monad b] (compile : Bytes → Except Fault C)
    (evaluate : Expr C → b (Reply σ (Except Stop (Expr C)))) (s : Session) (state : σ) (line : Bytes) :
    b (Turn σ) := do
  let text := s.buffer ++ line
  let complete := changePhase s.phase .prompting "input complete"
  match Expr.read compile text with
  | .error f =>
    if f.holdsIncomplete then
      return ⟨false, ⟨.continuing, text⟩, state, changePhase s.phase .continuing "incomplete input", none⟩
    else if f.holdsEmpty then
      return ⟨false, {}, state, complete, none⟩
    else
      let failed := Log.Event.debug "parse failed" [(Log.errorKey, .text f.message)]
      return ⟨false, {}, state, complete ++ [answer (report f), (.session, .log failed)], some text⟩
  | .ok e =>
    let reply ← evaluate e
    let (quit, said) := conclude reply.value
    return ⟨quit, {}, reply.state, complete ++ reply.effects.map (.machine, ·) ++ said, some text⟩

def feed (m : Machine C σ) (s : Session) (state : σ) (line : Bytes) : Turn σ :=
  s.feedIn (b := Id) m.compile (fun e => e.eval m state) state line

theorem feed_eq (m : Machine C σ) (s : Session) (state : σ) (line : Bytes) :
    s.feed m state line =
      match Expr.read m.compile (s.buffer ++ line) with
      | .error f =>
        if f.holdsIncomplete then
          ⟨false, ⟨.continuing, s.buffer ++ line⟩, state,
            changePhase s.phase .continuing "incomplete input", none⟩
        else if f.holdsEmpty then
          ⟨false, {}, state, changePhase s.phase .prompting "input complete", none⟩
        else
          ⟨false, {}, state, changePhase s.phase .prompting "input complete" ++ [answer (report f),
            (.session, .log (.debug "parse failed" [(Log.errorKey, .text f.message)]))],
            some (s.buffer ++ line)⟩
      | .ok e =>
        ⟨(conclude (e.eval m state).value).1, {}, (e.eval m state).state,
          changePhase s.phase .prompting "input complete" ++ (e.eval m state).effects.map (.machine, ·) ++
            (conclude (e.eval m state).value).2,
          some (s.buffer ++ line)⟩ := by
  rfl

end Session
end TapeShell
