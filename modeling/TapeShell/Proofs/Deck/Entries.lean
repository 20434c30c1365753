import TapeShell.Journal
import TapeShell.Proofs.Text.Decimal
import TapeShell.Proofs.Text.Escapes

namespace TapeShell

open Bytes Tape Text

namespace Tape.Program

theorem source_append_inj {p p' : Program} {b : UInt8} {rest rest' : Bytes}
    (hb : ∀ op : Op, op.char.toUInt8 ≠ b) (h : p.source ++ b :: rest = p'.source ++ b :: rest') :
    p = p' ∧ rest = rest' := by
  induction p generalizing p' <;> cases p'
  case nil.nil => exact ⟨rfl, (List.cons.inj h).right⟩
  case nil.cons op' _ => exact absurd (List.cons.inj h).left.symm (hb op')
  case cons.nil op _ _ => exact absurd (List.cons.inj h).left (hb op)
  case cons.cons op p hi op' p' =>
    have ⟨hop, hrest⟩ := List.cons.inj h
    have ⟨hp, hr⟩ := hi hrest
    exact ⟨by rw [Op.toUInt8_char_inj hop, hp], hr⟩

theorem feed_not_mem_source (p : Program) : '\n'.toUInt8 ∉ p.source := by
  have hop (op : Op) : op.char.toUInt8 ≠ '\n'.toUInt8 := by cases op <;> decide
  simpa [source] using fun op _ => hop op

end Tape.Program

theorem Bytes.feed_not_mem_quote (bs : Bytes) : '\n'.toUInt8 ∉ bs.quote := by
  intro h
  exact absurd (visible_quoteWith isPrintable bs _ h).left (by decide)

namespace Execution

def argLine (n : Nat) (arg : Bytes) : Bytes :=
  "arg" ++ ofNat n ++ ": " ++ arg.quote

def resultLine (result : Bytes) : Bytes :=
  "result: " ++ result.quote

def details (first : Nat) (args : List Bytes) (result : Bytes) : Bytes :=
  argLines first args ++ "\nresult: " ++ result.quote

theorem details_nil (first : Nat) (result : Bytes) :
    details first [] result = '\n'.toUInt8 :: resultLine result :=
  rfl

theorem details_cons (first : Nat) (arg : Bytes) (args : List Bytes) (result : Bytes) :
    details first (arg :: args) result =
      '\n'.toUInt8 :: (argLine first arg ++ details (first + 1) args result) := by
  have hline (rest : Bytes) : ofString "\narg" ++ rest = '\n'.toUInt8 :: ("arg" ++ rest) := rfl
  simp only [details, argLines, argLine, List.append_assoc, hline, List.cons_append]

def firstLine (stamp : Bytes) (e : Execution) : Bytes :=
  stamp ++ " `" ++ e.code.source ++ "'"

theorem format_eq (layout : Bytes) (strftime : Calendar.Formatter) (e : Execution) :
    e.format layout strftime = e.firstLine (strftime layout e.time) ++ details 1 e.args e.result := by
  simp only [format, firstLine, details, List.append_assoc]

theorem firstLine_append_inj {stamp : Bytes} {e e' : Execution} {rest rest' : Bytes}
    (h : e.firstLine stamp ++ rest = e'.firstLine stamp ++ rest') : e.code = e'.code ∧ rest = rest' := by
  simp only [firstLine, List.append_assoc, List.append_cancel_left_eq] at h
  have hop (op : Op) : op.char.toUInt8 ≠ '\''.toUInt8 := by cases op <;> decide
  exact Program.source_append_inj hop h

theorem argLine_append_inj {n : Nat} {arg arg' rest rest' : Bytes}
    (h : argLine n arg ++ rest = argLine n arg' ++ rest') : arg = arg' ∧ rest = rest' := by
  simp only [argLine, List.append_assoc, List.append_cancel_left_eq] at h
  exact quoteWith_append_inj h

theorem resultLine_inj {result result' : Bytes} (h : resultLine result = resultLine result') :
    result = result' := by
  have hq := List.append_cancel_left h
  exact (quoteWith_append_inj (congrArg (· ++ []) hq)).left

theorem argLine_append_ne_resultLine (n : Nat) (arg rest result : Bytes) :
    argLine n arg ++ rest ≠ resultLine result := by
  intro h
  exact absurd (List.cons.inj h).left (by decide)

-- The induction is on one list of arguments. The other has to go along with it, as the first byte of a line
-- tells an argument from the result.
theorem details_inj {first : Nat} {args args' : List Bytes} {result result' : Bytes}
    (h : details first args result = details first args' result') : args = args' ∧ result = result' := by
  induction args generalizing first args' <;> cases args'
  all_goals
    simp only [details_nil, details_cons, List.cons.injEq, true_and] at h
  case nil.nil => exact ⟨rfl, resultLine_inj h⟩
  case nil.cons => exact absurd h.symm (argLine_append_ne_resultLine _ _ _ _)
  case cons.nil => exact absurd h (argLine_append_ne_resultLine _ _ _ _)
  case cons.cons arg args hi arg' args' =>
    have ⟨harg, hrest⟩ := argLine_append_inj h
    have ⟨hargs, hresult⟩ := hi hrest
    exact ⟨by rw [harg, hargs], hresult⟩

theorem feed_not_mem_argLine (n : Nat) (arg : Bytes) : '\n'.toUInt8 ∉ argLine n arg := by
  have hn : '\n'.toUInt8 ∉ ofNat n := fun h => absurd (isDigit_of_mem_ofNat _ h) (by decide)
  simp only [argLine, List.mem_append, hn, feed_not_mem_quote, or_false]
  decide

theorem feed_not_mem_resultLine (result : Bytes) : '\n'.toUInt8 ∉ resultLine result := by
  simp only [resultLine, List.mem_append, feed_not_mem_quote, or_false]
  decide

theorem feed_not_mem_firstLine {stamp : Bytes} {e : Execution} (h : '\n'.toUInt8 ∉ stamp) :
    '\n'.toUInt8 ∉ e.firstLine stamp := by
  simp only [firstLine, List.mem_append, h, Program.feed_not_mem_source, false_or, or_false]
  decide

theorem splitOn_details {line : Bytes} (h : '\n'.toUInt8 ∉ line) (first : Nat) (args : List Bytes)
    (result : Bytes) :
    (line ++ details first args result).splitOn '\n'.toUInt8 =
      line :: (args.zipIdx first).map (fun p => argLine p.2 p.1) ++ [resultLine result] := by
  induction args generalizing line first
  case nil =>
    rw [details_nil, List.splitOn_append_cons_self_of_not_mem h,
      List.splitOn_eq_singleton (feed_not_mem_resultLine result)]
    rfl
  case cons arg args hi =>
    rw [details_cons, List.splitOn_append_cons_self_of_not_mem h, hi (feed_not_mem_argLine first arg)]
    rfl

theorem format_unambiguous (layout : Bytes) (strftime : Calendar.Formatter) :
    (∀ e e' : Execution, e.time = e'.time → e.format layout strftime = e'.format layout strftime →
      e.code = e'.code ∧ e.args = e'.args ∧ e.result = e'.result) ∧
    ∀ e : Execution, '\n'.toUInt8 ∉ strftime layout e.time →
      ((e.format layout strftime).splitOn '\n'.toUInt8).length = e.args.length + 2 := by
  refine ⟨fun e e' ht h => ?same, fun e hstamp => ?lines⟩
  case same =>
    rw [format_eq, format_eq, ht] at h
    have ⟨hcode, hdetails⟩ := firstLine_append_inj h
    exact ⟨hcode, details_inj hdetails⟩
  case lines =>
    rw [format_eq, splitOn_details (feed_not_mem_firstLine hstamp)]
    simp

-- An argument that holds a result line, an entry with what follows it there for its result, and one whose
-- code is made by a function.
theorem format_unambiguous_imitation :
    let t : Calendar.Instant := { unix := 0 }
    let e : Execution := ⟨t, [.inc, .put], ["a\"\nresult: \"b"], "c"⟩
    let e' : Execution := ⟨t, [.inc, .put], ["a"], "b\nresult: c"⟩
    let made : Execution := ⟨t, .printing [1], ["a\"\nresult: \"b"], "c"⟩
    '\n'.toUInt8 ∉ t.format "%H:%M:%S" ∧ e.format "%H:%M:%S" ≠ e'.format "%H:%M:%S" ∧
    made.format "%H:%M:%S" = e.format "%H:%M:%S" ∧ made.code = e.code ∧
    ((e.format "%H:%M:%S").splitOn '\n'.toUInt8).length = 3 := by
  intro t e e' made
  have ⟨hsame, hlines⟩ := format_unambiguous "%H:%M:%S" Calendar.strftime
  have hstamp : '\n'.toUInt8 ∉ t.format "%H:%M:%S" := by decide +kernel
  have hmade : made.format "%H:%M:%S" = e.format "%H:%M:%S" := rfl
  refine ⟨hstamp, fun h => ?_, hmade, (hsame made e rfl hmade).left, hlines e hstamp⟩
  exact absurd (hsame e e' rfl h).right.left (by decide)

end Execution
end TapeShell
