import TapeShell.Proofs.Session.Sources

namespace TapeShell

def LineSource.answers {ι : Type} [LineSource ι] : List Bytes → ι → List (Except Fault Bytes)
  | [], _ => []
  | prompt :: prompts, s => (ask prompt s).answer :: answers prompts (ask prompt s).source

def answersOf (lines : List Bytes) (f : Fault) (n : Nat) : List (Except Fault Bytes) :=
  (lines.map Except.ok ++ List.replicate n (Except.error f)).take n

theorem answersOf_nil (f : Fault) (n : Nat) : answersOf [] f n = List.replicate n (.error f) := by
  simp [answersOf]

theorem answersOf_cons (line : Bytes) (lines : List Bytes) (f : Fault) (n : Nat) :
    answersOf (line :: lines) f (n + 1) = .ok line :: answersOf lines f n := by
  rw [answersOf, List.map_cons, List.cons_append, List.take_succ_cons, List.replicate_succ',
    ← List.append_assoc, List.take_append_of_le_length (by simp), answersOf]

namespace Bytes

-- `Cut text lines last`: cut after each line feed, `text` falls into `lines`, here without their line
-- feeds, and a last piece that has none.
structure Cut (text : Bytes) (lines : List Bytes) (last : Bytes) : Prop where
  joined : text = lines.flatMap (· ++ ['\n'.toUInt8]) ++ last
  lines  : ∀ line ∈ lines, '\n'.toUInt8 ∉ line
  last   : '\n'.toUInt8 ∉ last

theorem exists_cut (text : Bytes) : ∃ lines last, Cut text lines last := by
  induction text
  case nil => exact ⟨[], [], rfl, nofun, nofun⟩
  case cons b text hi =>
    have ⟨lines, last, hj, hs, hl⟩ := hi
    by_cases hb : b = '\n'.toUInt8
    case pos =>
      refine ⟨[] :: lines, last, ?_, List.forall_mem_cons.mpr ⟨List.not_mem_nil, hs⟩, hl⟩
      simp [hj, hb]
    case neg =>
      have hne {bs : Bytes} (h : '\n'.toUInt8 ∉ bs) : '\n'.toUInt8 ∉ b :: bs :=
        List.not_mem_cons_of_ne_of_not_mem (Ne.symm hb) h
      cases lines
      case nil => exact ⟨[], b :: last, by simp [hj], nofun, hne hl⟩
      case cons line lines =>
        have ⟨hf, hs⟩ := List.forall_mem_cons.mp hs
        exact ⟨(b :: line) :: lines, last, by simp [hj], List.forall_mem_cons.mpr ⟨hne hf, hs⟩, hl⟩

end Bytes

namespace PlainLines

open Bytes LineSource

variable {failure : Option Fault} {quiet : Bool}

theorem answers_cons (input : Source) (prompt : Bytes) (prompts : List Bytes) :
    answers (prompt :: prompts) ({ input, quiet } : PlainLines) =
      (next input).1 :: answers prompts ({ input := (next input).2, quiet } : PlainLines) := by
  rw [answers, ask_of_writable rfl]

theorem answers_nil (prompts : List Bytes) :
    answers prompts ({ input := ⟨[], failure⟩, quiet } : PlainLines) =
      answersOf [] (failure.getD .endOfInput) prompts.length := by
  rw [answersOf_nil]
  induction prompts
  case nil => rfl
  case cons prompt prompts hi =>
    have hn : next ⟨[], failure⟩ = (.error (failure.getD .endOfInput), ⟨[], failure⟩) := by
      cases failure <;> rfl
    rw [answers_cons, hn, hi]
    rfl

theorem answers_append {rest : Bytes} {given : List Bytes} {f : Fault}
    (hr : ∀ prompts, answers prompts ({ input := ⟨rest, failure⟩, quiet } : PlainLines) =
      answersOf given f prompts.length)
    {lines : List Bytes} (h : ∀ line ∈ lines, '\n'.toUInt8 ∉ line) (prompts : List Bytes) :
    answers prompts
        ({ input := ⟨lines.flatMap (· ++ ['\n'.toUInt8]) ++ rest, failure⟩, quiet } : PlainLines) =
      answersOf (lines.map dropReturn ++ given) f prompts.length := by
  induction lines generalizing prompts
  case nil => exact hr prompts
  case cons line lines hi =>
    have ⟨hl, hs⟩ := List.forall_mem_cons.mp h
    cases prompts
    case nil => rfl
    case cons prompt prompts =>
      rw [List.flatMap_cons, List.append_assoc, List.append_assoc, List.singleton_append, answers_cons,
        next_of_not_mem hl, hi hs, List.map_cons, List.cons_append, List.length_cons, answersOf_cons]

theorem answers_last {last : Bytes} (h : '\n'.toUInt8 ∉ last) (hn : last ≠ []) (prompts : List Bytes) :
    answers prompts ({ input := ⟨last, none⟩, quiet } : PlainLines) =
      answersOf [dropReturn last] .endOfInput prompts.length := by
  cases prompts
  case nil => rfl
  case cons prompt prompts =>
    rw [answers_cons, next_last_of_not_mem h hn, answers_nil, List.length_cons, answersOf_cons]
    rfl

theorem answers_last_of_failure {last : Bytes} (h : '\n'.toUInt8 ∉ last) (f : Fault)
    (prompts : List Bytes) :
    answers prompts ({ input := ⟨last, some f⟩, quiet } : PlainLines) =
      answersOf [] f prompts.length := by
  have he : next ⟨last, some f⟩ = (.error f, ⟨[], some f⟩) := by
    simp only [next, cutLine?_of_not_mem h]
    rfl
  cases prompts
  case nil => rfl
  case cons prompt prompts =>
    rw [answers_cons, he, answers_nil, answersOf_nil, answersOf_nil]
    rfl

-- The last piece is taken for a line whose end is missing, but it loses a carriage return like any other.
theorem answers_plain_input (text : Bytes) (quiet : Bool) :
    ∃ lines last, Cut text lines last ∧
      (∀ prompts, answers prompts ({ input := ⟨text, none⟩, quiet } : PlainLines) =
        answersOf (lines.map dropReturn ++ if last = [] then [] else [dropReturn last]) .endOfInput
          prompts.length) ∧
      (dropReturn last = last ↔ last.getLast? ≠ some '\r'.toUInt8) ∧
      ∀ f prompts, answers prompts ({ input := ⟨text, some f⟩, quiet } : PlainLines) =
        answersOf (lines.map dropReturn) f prompts.length := by
  obtain ⟨lines, last, rfl, hs, hl⟩ := exists_cut text
  refine ⟨lines, last, ⟨rfl, hs, hl⟩, ?ends, dropReturn_eq_self_iff, ?fails⟩
  case ends =>
    refine answers_append (fun prompts => ?_) hs
    split
    case isTrue hn => exact hn ▸ answers_nil prompts
    case isFalse hn => exact answers_last hl hn prompts
  case fails =>
    intro f prompts
    rw [answers_append (answers_last_of_failure hl f) hs, List.append_nil]

theorem answers_last_return :
    Cut "a\r" [] "a\r" ∧
    answers ["> ", "> "] ({ input := ⟨"a\r", none⟩ } : PlainLines) = [.ok "a", .error .endOfInput] ∧
    Bytes.ofString "a" ≠ "a\r" :=
  ⟨⟨rfl, nofun, by decide⟩, rfl, by decide⟩

end PlainLines
end TapeShell
