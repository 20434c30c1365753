import TapeShell.Bencode.Basic
import TapeShell.Tape.Execution
import TapeShell.Text.Quoted

namespace TapeShell

-- A machine's answer to a name that has no code but an effect on the session.
structure Signal where
  code : Int
  deriving DecidableEq, Repr

namespace Signal

def proceed : Signal := ⟨1⟩

def quit : Signal := ⟨2⟩

def name (s : Signal) : Bytes :=
  if s = proceed then "continue"
  else if s = quit then "quit"
  else "Signal(" ++ Bytes.ofInt s.code ++ ")"

end Signal

inductive Fault where
  | signal (s : Signal)
  | incomplete
  | empty
  | unexpected (c : Char)
  | trailing (c : Char)
  | uncompiled (cause : Fault)
  | evaluation (cause : Fault)
  | notImplemented
  | badOp (c : Char)
  | decoding (e : Bencode.DecodeError)
  | execution (e : Tape.ExecError)
  | stopped
  | result (raw : Bytes) (cause : Fault)
  | outputAfterResult
  | endOfInput
  | context (label : Bytes) (cause : Fault)
  | plain (text : Bytes)
  deriving Inhabited

namespace Fault

section

-- The characters outside ASCII that are shown as they are.
variable (printable : Char → Bool)

def decodeMessage : Bencode.DecodeError → Bytes
  | .unexpectedEnd => "bencode: unexpected EOF"
  | .unexpectedByte b =>
    "bencode: unexpected character " ++ Text.quoteCharWith printable (Char.ofUInt8 b)
  | .unexpectedKey key => "bencode: unexpected value " ++ key.encode

def execMessage : Tape.ExecError → Bytes
  | .pointer pc => "tape: illegal pointer movement at " ++ Bytes.ofNat pc
  | .unbalanced (.opening pc) => "tape: pc out of range: unmatched [ at " ++ Bytes.ofNat pc
  | .unbalanced (.closing pc) => "tape: pc out of range: unmatched ] at " ++ Bytes.ofNat pc
  | .limit maxCells => "tape: cell limit exceeded (" ++ Bytes.ofInt maxCells ++ " cells)"

def unexpectedMessage (c : Char) : Bytes :=
  "unexpected `" ++ Text.escapeWith printable (Bytes.ofChar c) ++ "`"

def messageWith : Fault → Bytes
  | .signal s => "signal: " ++ s.name
  | .incomplete => "unexpectedly terminated"
  | .empty => "no expression"
  | .unexpected c => unexpectedMessage printable c
  | .trailing c => unexpectedMessage printable c
  | .uncompiled cause => "failed to compile: " ++ cause.messageWith
  | .evaluation cause => cause.messageWith
  | .notImplemented => "not implemented"
  | .badOp c => "unexpected character " ++ Text.quoteCharWith printable c
  | .decoding e => decodeMessage printable e
  | .execution e => execMessage e
  | .stopped => "tape: still running"
  | .result raw cause =>
    "broken return value " ++ Text.quoteWith printable raw.latin1 ++ ": " ++ cause.messageWith
  | .outputAfterResult => "invoke: output after result"
  | .endOfInput => "EOF"
  | .context label cause => label ++ cause.messageWith
  | .plain text => text

end

def message (f : Fault) : Bytes :=
  f.messageWith Text.isPrintable

def chain : Fault → List Fault
  | .uncompiled cause => .uncompiled cause :: cause.chain
  | .evaluation cause => .evaluation cause :: cause.chain
  | .result raw cause => .result raw cause :: cause.chain
  | .context label cause => .context label cause :: cause.chain
  | f => [f]

def signal? (f : Fault) : Option Signal :=
  f.chain.findSome? fun
    | .signal s => some s
    | _ => none

def holdsQuit (f : Fault) : Bool :=
  f.chain.any fun
    | .signal s => s = .quit
    | _ => false

def holdsIncomplete (f : Fault) : Bool :=
  f.chain.any (· matches .incomplete)

def holdsEmpty (f : Fault) : Bool :=
  f.chain.any (· matches .empty)

end Fault
end TapeShell
