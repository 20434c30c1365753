import TapeShell.Proofs.Reader.Automaton

namespace TapeShell

namespace Reader

variable {C : Type} (compile : Bytes → Except Fault C)

-- The reader looks at nothing but the characters of runes.
def runChars (r : Reader C) : List Char → Progress C × List Char
  | [] => (.more r, [])
  | c :: cs =>
    match r.step compile c with
    | .more r => r.runChars cs
    | .done e => (.done e, cs)
    | .failed f => (.failed f, cs)

def Progress.resume : Progress C → List Char → Progress C × List Char
  | .more r, cs => r.runChars compile cs
  | .done e, cs => (.done e, cs)
  | .failed f, cs => (.failed f, cs)

variable {compile} {r : Reader C}

@[simp]
theorem Progress.resume_more (cs : List Char) :
    (Progress.more r).resume compile cs = r.runChars compile cs :=
  rfl

@[simp]
theorem Progress.resume_done (e : Expr C) (cs : List Char) :
    (Progress.done e).resume compile cs = (.done e, cs) :=
  rfl

@[simp]
theorem Progress.resume_failed (f : Fault) (cs : List Char) :
    (Progress.failed f).resume compile cs = (.failed f, cs) :=
  rfl

theorem runChars_cons (c : Char) (cs : List Char) :
    r.runChars compile (c :: cs) = (r.step compile c).resume compile cs := by
  rw [runChars]
  cases r.step compile c <;> rfl

theorem runChars_append (cs ds : List Char) :
    r.runChars compile (cs ++ ds) =
      (r.runChars compile cs).1.resume compile ((r.runChars compile cs).2 ++ ds) := by
  induction cs generalizing r
  case nil => rfl
  case cons c cs hi =>
    rw [List.cons_append, runChars_cons, runChars_cons]
    cases r.step compile c
    case more => exact hi
    all_goals rfl

theorem runChars_of_more {cs : List Char} {r' : Reader C} {rest : List Char}
    (h : r.runChars compile cs = (.more r', rest)) : rest = [] := by
  induction cs generalizing r
  case nil => exact (Prod.mk.inj h).right.symm
  case cons c cs hi =>
    rw [runChars_cons] at h
    cases hs : r.step compile c <;> simp only [hs, Progress.resume_more, Progress.resume_done,
      Progress.resume_failed, Prod.mk.injEq, reduceCtorEq, false_and] at h
    exact hi h

theorem runChars_map (rs : List Rune) :
    r.runChars compile (rs.map Rune.char) =
      ((r.run compile rs).1, (r.run compile rs).2.map Rune.char) := by
  induction rs generalizing r
  case nil => rfl
  case cons c rs hi =>
    rw [List.map_cons, runChars_cons, run]
    cases r.step compile c.char
    case more => exact hi
    all_goals rfl

theorem run_suffix (compile : Bytes → Except Fault C) (r : Reader C) (rs : List Rune) :
    ∃ used, rs = used ++ (r.run compile rs).2 := by
  induction rs generalizing r
  case nil => exact ⟨[], rfl⟩
  case cons c rs hi =>
    rw [run]
    cases r.step compile c.char
    case more r =>
      obtain ⟨used, h⟩ := hi r
      exact ⟨c :: used, congrArg (c :: ·) h⟩
    all_goals exact ⟨[c], rfl⟩

end Reader

namespace Expr

variable {C : Type} (compile : Bytes → Except Fault C)

def readChars (cs : List Char) : Except Fault (Expr C) :=
  match Reader.runChars compile {} cs with
  | (.more r, _) => .error r.atEnd
  | (.failed f, _) => .error f
  | (.done e, rest) =>
    match rest.dropWhile Reader.isSpace with
    | [] => .ok e
    | c :: _ => .error (.trailing c)

theorem read_eq_readChars (text : Bytes) : read compile text = readChars compile text.chars := by
  have ⟨used, hu⟩ := Reader.run_suffix compile {} text.runes
  have hr := Bytes.runes_ofRunes_of_suffix hu
  rw [readChars, Bytes.chars, Reader.runChars_map, read, parse_eq_readFrom, Reader.readFrom]
  rcases h : Reader.run compile {} text.runes with ⟨p, rest⟩
  rw [h] at hr
  cases p
  case done e =>
    have hchars : Bytes.chars (Bytes.ofRunes rest) = rest.map Rune.char :=
      congrArg (List.map Rune.char) hr
    exact hchars ▸ rfl
  all_goals rfl

end Expr
end TapeShell
