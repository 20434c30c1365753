import TapeShell.Source

namespace TapeShell

structure Asked (ι : Type) where
  answer : Except Fault Bytes
  source : ι
  written : Bytes := []

class LineSource (ι : Type) where
  ask : (prompt : Bytes) → ι → Asked ι
  remaining : ι → Nat
  remaining_lt : ∀ {prompt s line}, (ask prompt s).answer = .ok line →
    remaining (ask prompt s).source < remaining s

namespace Bytes

def cutLine? : Bytes → Option (Bytes × Bytes)
  | [] => none
  | b :: bs =>
    if b = '\n'.toUInt8 then some ([b], bs)
    else (cutLine? bs).map fun (line, rest) => (b :: line, rest)

theorem length_lt_of_cutLine? {bs line rest : Bytes} (h : cutLine? bs = some (line, rest)) :
    rest.length < bs.length := by
  induction bs generalizing line with
  | nil => simp [cutLine?] at h
  | cons b bs ih =>
    rw [cutLine?] at h
    split at h
    case isTrue => cases h; simp
    case isFalse =>
      have ⟨⟨_, _⟩, hc, he⟩ := Option.map_eq_some_iff.mp h
      cases he
      exact Nat.lt_succ_of_lt (ih hc)

end Bytes

structure ScriptedLines where
  lines : List Bytes
  prompts : List Bytes := []

namespace ScriptedLines

def ask (prompt : Bytes) (s : ScriptedLines) : Asked ScriptedLines :=
  let prompts := s.prompts ++ [prompt]
  match s.lines with
  | [] => ⟨.error .endOfInput, { s with prompts }, []⟩
  | line :: lines => ⟨.ok line, ⟨lines, prompts⟩, []⟩

instance : LineSource ScriptedLines where
  ask
  remaining s := s.lines.length
  remaining_lt {prompt s line} h := by
    cases hl : s.lines with
    | nil => simp [ask, hl] at h
    | cons => simp [ask, hl]

end ScriptedLines

structure PlainLines where
  input : Source
  quiet : Bool := false
  -- How many prompts can be written before writing fails, if it ever does.
  writable : Option Nat := none

namespace PlainLines

-- Takes the next line. A last line may lack its end, unless the input fails there.
def next (input : Source) : Except Fault Bytes × Source :=
  match input.unread.cutLine? with
  | some (line, rest) => (.ok (Bytes.dropLineEnd line), input.rest rest)
  | none =>
    match input.failure with
    | some f => (.error f, input.rest [])
    | none =>
      if input.unread = [] then (.error .endOfInput, input)
      else (.ok (Bytes.dropLineEnd input.unread), input.rest [])

def ask (prompt : Bytes) (s : PlainLines) : Asked PlainLines :=
  if ¬s.quiet ∧ s.writable = some 0 then ⟨.error (.plain "write failed"), s, []⟩
  else
    let (answer, input) := next s.input
    ⟨answer, { s with input, writable := s.writable.map (· - 1) }, if s.quiet then [] else prompt⟩

theorem length_next {input : Source} {line : Bytes} (h : (next input).1 = .ok line) :
    (next input).2.unread.length < input.unread.length := by
  unfold next at h ⊢
  split
  next hc => exact Bytes.length_lt_of_cutLine? hc
  next hc =>
    simp only [hc] at h
    split
    next hf => simp [hf] at h
    next hf =>
      split
      next he => simp [hf, he] at h
      next he => simpa [Source.rest] using List.length_pos_iff.mpr he

instance : LineSource PlainLines where
  ask
  remaining s := s.input.unread.length
  remaining_lt {prompt s line} h := by
    unfold ask at h ⊢
    split at h
    · cases h
    next hw =>
      rw [if_neg hw]
      exact length_next h

end PlainLines
end TapeShell
