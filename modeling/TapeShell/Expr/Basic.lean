import TapeShell.Fault

namespace TapeShell

class Code (C : Type) where
  source : C → Bytes
  marshal : C → Except Fault Bytes

inductive Expr (C : Type) where
  | nil
  | str (text : Bytes)
  | cond (test yes no : Expr C)
  | lambda (code : C)
  | call (callee : Expr C) (args : List (Expr C))
  | macroName (name : Bytes)
  -- The place of an expression that is not there. No text reads as one.
  | hole
  deriving Inhabited

namespace Expr

inductive Kind where
  | nil
  | str
  | cond
  | lambda
  | call
  | macroName
  deriving DecidableEq, Repr

namespace Kind

def all : List Kind := [.nil, .str, .cond, .lambda, .call, .macroName]

def name : Kind → Bytes
  | .nil => "nil"
  | .str => "str"
  | .cond => "if"
  | .lambda => "lambda"
  | .call => "call"
  | .macroName => "macro"

def nameOf (n : Int) : Bytes :=
  if n < 0 then "Kind(" ++ Bytes.ofInt n ++ ")"
  else match all[n.toNat]? with
    | some kind => kind.name
    | none => "Kind(" ++ Bytes.ofInt n ++ ")"

end Kind

variable {C : Type}

def kind? : Expr C → Option Kind
  | .nil => some .nil
  | .str _ => some .str
  | .cond .. => some .cond
  | .lambda _ => some .lambda
  | .call .. => some .call
  | .macroName _ => some .macroName
  | .hole => none

def truthy : Expr C → Bool
  | .nil => false
  | .str text => text ≠ []
  | _ => true

mutual

def display [Code C] : Expr C → Bytes
  | .nil => "nil"
  | .str text => text
  | .cond .. => "<if expression>"
  | .lambda code => "`" ++ Code.source code ++ "'"
  | .call callee args => "(" ++ callee.display ++ " [ " ++ displayArgs args ++ "])"
  | .macroName name => "@" ++ name ++ "~"
  | .hole => "<nil>"

def displayArgs [Code C] : List (Expr C) → Bytes
  | [] => []
  | arg :: args => arg.display ++ " " ++ displayArgs args

end

mutual

def isWhole : Expr C → Bool
  | .cond test yes no => test.isWhole && yes.isWhole && no.isWhole
  | .call callee args => callee.isWhole && allWhole args
  | .hole => false
  | _ => true

def allWhole : List (Expr C) → Bool
  | [] => true
  | arg :: args => arg.isWhole && allWhole args

end

end Expr
end TapeShell
