import TapeShell.Text.Decimal
import TapeShell.Text.Rune

namespace TapeShell

structure History where
  items : List Bytes := []

namespace History

def limit : Nat := 1000

-- The longest line that can be loaded, with its end.
def maxLine : Nat := 4096

def push (h : History) (item : Bytes) : History :=
  let items := h.items ++ [item]
  ⟨items.drop (items.length - limit)⟩

def add (h : History) (item : Bytes) : History :=
  if h.items.getLast? = some item then h else h.push item

def lines : Bytes → List Bytes × Bytes
  | [] => ([], [])
  | b :: bs =>
    match lines bs with
    | (ls, rest) =>
      if b = '\n'.toUInt8 then ([b] :: ls, rest)
      else match ls with
        | [] => ([], b :: rest)
        | l :: ls => ((b :: l) :: ls, rest)

inductive LoadError where
  | tooLong (line : Nat)
  | notText (line : Nat)
  deriving DecidableEq, Repr

def LoadError.message : LoadError → Bytes
  | .tooLong line => "line " ++ Bytes.ofNat line ++ " is too long"
  | .notText line => "invalid string at line " ++ Bytes.ofNat line

def loadLines (h : History) (count : Nat) : List Bytes → History × Nat × Option LoadError
  | [] => (h, count, none)
  | line :: ls =>
    if maxLine < line.length then (h, count, some (.tooLong (count + 1)))
    else if !(Bytes.dropLineEnd line).isUtf8 then (h, count, some (.notText (count + 1)))
    else loadLines (h.push (Bytes.dropLineEnd line)) (count + 1) ls

def load (h : History) (content : Bytes) : History × Nat × Option LoadError :=
  let (ls, rest) := lines content
  match h.loadLines 0 ls with
  | (h, count, some e) => (h, count, some e)
  | (h, count, none) =>
    if rest = [] then (h, count, none)
    else if maxLine ≤ rest.length then (h, count, some (.tooLong (count + 1)))
    else if !rest.isUtf8 then (h, count, some (.notText (count + 1)))
    else (h.push rest, count + 1, none)

def content (h : History) : Bytes :=
  h.items.flatMap (· ++ "\n")

end History
end TapeShell
