import TapeShell.Fault

namespace TapeShell

-- Past its last byte a source fails with `failure`, or just ends if it has none.
structure Source where
  unread : Bytes
  failure : Option Fault := none

abbrev Reading (ε α : Type) : Type :=
  ExceptT ε (StateM Source) α

namespace Source

def rest (s : Source) (unread : Bytes) : Source :=
  { s with unread }

-- With nothing left to give, a source gives what it stops with.
def readByte : Reading (Option Fault) UInt8 := fun s =>
  match s.unread with
  | b :: unread => (.ok b, s.rest unread)
  | [] => (.error s.failure, s)

def readRune : Reading (Option Fault) Char := fun s =>
  match s.unread.cutRune? with
  | some (r, unread) => (.ok r.char, s.rest unread)
  | none => (.error s.failure, s)

end Source

namespace Reading

variable {ε ε' α β : Type}

theorem bind_apply (x : Reading ε α) (f : α → Reading ε β) (s : Source) :
    (x >>= f) s = match x s with
      | (.ok a, s) => f a s
      | (.error e, s) => (.error e, s) := by
  change (match x s with | (outcome, s) => ExceptT.bindCont f outcome s) = _
  rcases x s with ⟨_ | _, _⟩ <;> rfl

theorem adapt_apply (g : ε → ε') (x : Reading ε α) (s : Source) :
    x.adapt g s = ((x s).1.mapError g, (x s).2) :=
  rfl

theorem adapt_bind (g : ε → ε') (x : Reading ε α) (f : α → Reading ε β) :
    (x >>= f).adapt g = x.adapt g >>= fun a => (f a).adapt g := by
  funext s
  rw [adapt_apply, bind_apply, bind_apply, adapt_apply]
  rcases x s with ⟨_ | _, _⟩ <;> rfl

end Reading
end TapeShell
