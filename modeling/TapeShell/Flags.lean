import TapeShell.Log.Level
import TapeShell.Text.Quoted

namespace TapeShell

structure Flags where
  config : Bytes := []
  history : Bytes := []
  plain : Bool := false

namespace Flags

inductive Refusal where
  | help
  | badForm (arg : Bytes)
  | undefined (name : Bytes)
  | noValue (name : Bytes)
  | notBoolean (value name : Bytes)
  deriving DecidableEq, Repr

def usage : Bytes :=
  "Usage of tapert:\n" ++
  "  -config file\n" ++
  "    \tTOML or YAML settings file\n" ++
  "  -history file\n" ++
  "    \tline history file (overrides config)\n" ++
  "  -plain\n" ++
  "    \tread plain lines without line editing\n"

namespace Refusal

def message : Refusal → Bytes
  | .help => []
  | .badForm arg => "bad flag syntax: " ++ arg ++ "\n"
  | .undefined name => "flag provided but not defined: -" ++ name ++ "\n"
  | .noValue name => "flag needs an argument: -" ++ name ++ "\n"
  | .notBoolean value name =>
    "invalid boolean value " ++ value.quote ++ " for -" ++ name ++ ": parse error\n"

def exitCode : Refusal → Nat
  | .help => 0
  | _ => 2

end Refusal

inductive Arg where
  | last
  | flag (name : Bytes) (value : Option Bytes)
  | bad

def dash : UInt8 := '-'.toUInt8

def ofName (text : Bytes) : Arg :=
  match text with
  | [] => .bad
  | b :: _ =>
    if b = dash ∨ b = '='.toUInt8 then .bad
    else
      let (name, value) := Bytes.cut '='.toUInt8 text
      .flag name value

def classify (arg : Bytes) : Arg :=
  match arg with
  | a :: b :: rest =>
    if a ≠ dash then .last
    else if b = dash then (if rest = [] then .last else ofName rest)
    else ofName (b :: rest)
  | _ => .last

def parse (f : Flags) : List Bytes → Except Refusal Flags
  | [] => .ok f
  | arg :: args =>
    match classify arg with
    | .last => .ok f
    | .bad => .error (.badForm arg)
    | .flag name value =>
      if name = Bytes.ofString "plain" then
        match value with
        | none => parse { f with plain := true } args
        | some v =>
          match v.toBool? with
          | some plain => parse { f with plain } args
          | none => .error (.notBoolean v name)
      else if name = Bytes.ofString "config" then
        match value, args with
        | some config, args => parse { f with config } args
        | none, config :: args => parse { f with config } args
        | none, [] => .error (.noValue name)
      else if name = Bytes.ofString "history" then
        match value, args with
        | some history, args => parse { f with history } args
        | none, history :: args => parse { f with history } args
        | none, [] => .error (.noValue name)
      else if name = Bytes.ofString "help" ∨ name = Bytes.ofString "h" then .error .help
      else .error (.undefined name)

end Flags
end TapeShell
