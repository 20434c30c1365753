import TapeShell.Session.Lines
import TapeShell.Text.Control

namespace TapeShell

structure TerminalLines where
  unread : Bytes

namespace TerminalLines

def next (unread : Bytes) : Except Fault Bytes × Bytes :=
  match unread.cutLine? with
  | some (line, rest) => (.ok (Bytes.dropLineEnd line), rest)
  | none => if unread = [] then (.error .endOfInput, []) else (.ok unread, [])

def isValidPrompt (prompt : Bytes) : Bool :=
  !prompt.chars.any Text.isControl

def ask (prompt : Bytes) (s : TerminalLines) : Asked TerminalLines :=
  if !isValidPrompt prompt then ⟨.error (.plain "invalid prompt"), s, []⟩
  else
    let (answer, unread) := next s.unread
    ⟨answer, ⟨unread⟩, prompt⟩

theorem length_next {unread line : Bytes} (h : (next unread).1 = .ok line) :
    (next unread).2.length < unread.length := by
  unfold next at h ⊢
  split
  next hc => exact Bytes.length_lt_of_cutLine? hc
  next hc =>
    split
    next he => simp [he, Bytes.cutLine?] at h
    next he => exact List.length_pos_iff.mpr he

instance : LineSource TerminalLines where
  ask
  remaining s := s.unread.length
  remaining_lt {prompt s line} h := by
    unfold ask at h ⊢
    split at h
    · cases h
    next hp =>
      rw [if_neg hp]
      exact length_next h

end TerminalLines
end TapeShell
