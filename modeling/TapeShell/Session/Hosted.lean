import TapeShell.Deck
import TapeShell.Session.Run

namespace TapeShell

open Tape

-- Actions on a deck whose clock is read in the monad `b`. Effects are kept until a line is done.
abbrev Hosted (b : Type → Type) : Type → Type :=
  StateT (Deck × List Effect) b

namespace Hosted

variable {b : Type → Type} [Monad b]

instance : Acts (Hosted b) Deck where
  get := fun (deck, effects) => return (deck, deck, effects)
  set deck := fun (_, effects) => return ((), deck, effects)
  emit more := fun (deck, effects) => return ((), deck, effects ++ more)

def evaluate (now : Hosted b Calendar.Instant) (c : Deck.Config) (deck : Deck) (e : Expr Program) :
    b (Reply Deck (Except Stop (Expr Program))) := do
  let (value, deck, effects) ← e.eval (Deck.machineIn now c) (deck, [])
  return ⟨value, deck, effects⟩

def feed (now : Hosted b Calendar.Instant) (c : Deck.Config) (s : Session) (deck : Deck) (line : Bytes) :
    b (Session.Turn Deck) :=
  s.feedIn Program.read (evaluate now c deck) deck line

end Hosted
end TapeShell
