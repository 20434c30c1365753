import TapeShell.Machine.Basic

namespace TapeShell

instance : Code Bytes where
  source code := code
  marshal code := .ok code

structure Script where
  -- Names that are answered with a fault. They win over those that have code.
  faults : List (Bytes × Fault) := []
  codes : List (Bytes × Bytes) := []
  answer : (code : Bytes) → (args : List (Expr Bytes)) → Except Fault (Expr Bytes)

namespace Script

inductive Request where
  | expand (name : Bytes)
  | run (code : Bytes) (args : List (Expr Bytes))

namespace Request

def expanded? : Request → Option Bytes
  | .expand name => some name
  | .run .. => none

def ran? : Request → Option Bytes
  | .expand _ => none
  | .run code _ => some code

end Request

def echo (_code : Bytes) (args : List (Expr Bytes)) : Except Fault (Expr Bytes) :=
  .ok (.str (Expr.displayArgs args))

def compile (src : Bytes) : Except Fault Bytes :=
  if '!'.toUInt8 ∈ src then .error (.plain ("refusing to compile " ++ src.quote)) else .ok src

def unknownName (name : Bytes) : Fault :=
  .plain ("failed to expand macro `" ++ name.escape ++ "`")

def expansion (s : Script) (name : Bytes) : Except Fault Bytes :=
  match s.faults.lookup name with
  | some f => .error f
  | none =>
    match s.codes.lookup name with
    | some code => .ok code
    | none => .error (unknownName name)

def machine (s : Script) : Machine Bytes (List Request) where
  compile
  expand name := fun requests => ⟨s.expansion name, requests ++ [.expand name], []⟩
  run code args := fun requests => ⟨s.answer code args, requests ++ [.run code args], []⟩

end Script
end TapeShell
