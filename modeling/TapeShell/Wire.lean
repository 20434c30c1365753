import TapeShell.Bencode.Decoder
import TapeShell.Machine.Basic
import TapeShell.Source

namespace TapeShell

namespace Bencode

def next : Reading Fault UInt8 :=
  Source.readByte.adapt (·.getD (.decoding .unexpectedEnd))

-- No more than `n` bytes are taken. With a bound above the number of unread ones, it is not met.
def Decoder.readFrom : Nat → Decoder → Reading Fault Value
  | 0, _ => throw (.decoding .unexpectedEnd)
  | n + 1, d => do
    match d.step (← next) with
    | .more d => readFrom n d
    | .done v => return v
    | .failed e => throw (.decoding e)

end Bencode

def Source.decode (s : Source) : Except Fault Bencode.Value × Source :=
  Bencode.Decoder.readFrom (s.unread.length + 1) {} s

namespace Wire

variable {C : Type}

open Bencode

mutual

def encode [Code C] : Expr C → Except Fault Bytes
  | .nil => .ok (encodeBytes [])
  | .str text => .ok (encodeBytes text)
  | .cond test yes no => do
    let test ← encode test
    let yes ← encode yes
    let no ← encode no
    return encodeTagged "if" (encodeList [test, yes, no])
  | .lambda code => Code.marshal code
  | .call callee args => do
    let callee ← encode callee
    let args ← encodeAll args
    return encodeTagged "call" (encodeList (callee :: args))
  | .macroName name => .ok (encodeTagged "macro" (encodeBytes name))
  | .hole => .error (.plain "invoke: cannot encode <nil>")

def encodeAll [Code C] : List (Expr C) → Except Fault (List Bytes)
  | [] => .ok []
  | arg :: args => do
    let arg ← encode arg
    let args ← encodeAll args
    return arg :: args

end

def encodeArgs [Code C] (args : List (Expr C)) : Except Fault Bytes :=
  encodeList <$> encodeAll args

-- Text that is not UTF-8 is lost.
def decodeText (bs : Bytes) : Expr C :=
  if bs.isUtf8 then .str bs else .nil

def decode : Value → Expr C
  | .bytes bs => decodeText bs
  | .dict [(key, .bytes bs)] => if key = Bytes.ofString "str" then decodeText bs else .nil
  | _ => .nil

def decodeResult (raw : Bytes) : Except Fault (Expr C) :=
  match Bencode.decode raw with
  | (.ok v, []) => .ok (decode v)
  | (.ok _, _ :: _) => .error (.result raw .outputAfterResult)
  | (.error e, _) => .error (.result raw (.decoding e))

structure Exchange where
  sent : Bytes
  fault : Option Fault

def callIn {μ : Type → Type} {σ : Type} [Monad μ] [Acts μ σ] [Code C] (runner : Bytes → Exchange)
    (args : List (Expr C)) : μ (Except Fault (Expr C)) :=
  match encodeArgs args with
  | .error f => pure (.error f)
  | .ok input =>
    let exchange := runner input
    match exchange.fault with
    | some f => do
      Acts.emit [.log (.debug "machine failed" [(Log.errorKey, .text f.message),
        ("sent", .int input.length), ("discarded", .int exchange.sent.length)])]
      return .error (.context "failed to start vm: " f)
    | none => do
      Acts.emit [.log (.debug "machine finished" [("sent", .int input.length),
        ("received", .int exchange.sent.length)])]
      return decodeResult exchange.sent

def call {σ : Type} [Code C] (runner : Bytes → Exchange) (args : List (Expr C)) :
    Action σ (Except Fault (Expr C)) :=
  callIn runner args

end Wire
end TapeShell
