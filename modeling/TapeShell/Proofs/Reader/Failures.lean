import TapeShell.Machine.Scripted
import TapeShell.Proofs.Reader.Prefix
import TapeShell.Proofs.Reader.Refusal
import TapeShell.Proofs.Reader.Rendering

namespace TapeShell

-- What is told instead of `f` when a source fails with `e` where it could have ended.
def Fault.failingWith (f e : Fault) : Fault :=
  match f with
  | .empty => e
  | .incomplete => e
  | f => f

def Fault.stoppedBy (f : Fault) : Option Fault → Fault
  | none => f
  | some e => f.failingWith e

namespace Reading

variable {C ε α β : Type}

-- Of what a source stops with, `x` sees nothing until it asks for more than there is. What it then fails
-- with is up to `tell`.
def Passes (tell : ε → Option Fault → ε) (x : Reading ε α) : Prop :=
  ∀ text, ∃ outcome : Except ε α, ∃ rest, ∀ stop,
    x ⟨text, stop⟩ = (outcome.mapError (tell · stop), ⟨rest, stop⟩)

section Rules

variable {tell : ε → Option Fault → ε} {x : Reading ε α} {f : α → Reading ε β}

theorem passes_pure (a : α) : Passes tell (pure a : Reading ε α) :=
  fun text => ⟨.ok a, text, fun _ => rfl⟩

theorem passes_throw {e : ε} (h : ∀ stop, tell e stop = e) : Passes tell (throw e : Reading ε α) := by
  intro text
  refine ⟨.error e, text, fun stop => ?_⟩
  exact congrArg (Except.error ·, _) (h stop).symm

theorem Passes.bind (hx : Passes tell x) (hf : ∀ a, Passes tell (f a)) : Passes tell (x >>= f) := by
  intro text
  have ⟨outcome, rest, hx⟩ := hx text
  cases outcome
  case error e =>
    refine ⟨.error e, rest, fun stop => ?_⟩
    rw [bind_apply, hx]
    rfl
  case ok a =>
    have ⟨outcome, rest, hf⟩ := hf a rest
    refine ⟨outcome, rest, fun stop => ?_⟩
    rw [bind_apply, hx]
    exact hf stop

theorem Passes.map {g : α → β} (hx : Passes tell x) : Passes tell (g <$> x) :=
  hx.bind fun a => passes_pure (g a)

theorem Passes.adapt {y : Reading (Option Fault) α} {atEnd : Fault} (hy : Passes (fun _ stop => stop) y)
    (he : ∀ e, atEnd.failingWith e = e) : Passes Fault.stoppedBy (y.adapt (·.getD atEnd)) := by
  intro text
  have ⟨outcome, rest, hy⟩ := hy text
  refine ⟨outcome.mapError fun _ => atEnd, rest, fun stop => ?_⟩
  rw [adapt_apply, hy]
  cases outcome
  case error =>
    cases stop
    case none => rfl
    case some e => exact congrArg (Except.error ·, _) (he e).symm
  case ok => rfl

end Rules

theorem passes_readRune : Passes (fun _ stop => stop) Source.readRune := by
  intro text
  cases h : text.cutRune?
  case none =>
    refine ⟨.error none, text, fun _ => ?_⟩
    simp only [Source.readRune, h]
    rfl
  case some cut =>
    refine ⟨.ok cut.1.char, cut.2, fun _ => ?_⟩
    simp only [Source.readRune, h]
    rfl

theorem passes_space (n : Nat) : Passes (fun _ stop => stop) (space n) := by
  induction n
  case zero => exact passes_readRune
  case succ n hi =>
    refine passes_readRune.bind fun c => ?_
    split
    case isTrue => exact hi
    case isFalse => exact passes_pure c

theorem passes_next (n : Nat) : Passes Fault.stoppedBy (next n) :=
  (passes_space n).adapt fun _ => rfl

theorem passes_read : Passes Fault.stoppedBy read :=
  passes_readRune.adapt fun _ => rfl

theorem passes_unexpected (c : Char) : Passes Fault.stoppedBy (throw (.unexpected c) : Reading Fault α) :=
  passes_throw fun stop => by cases stop <;> rfl

theorem passes_delimited (delimiter : Char) (n : Nat) (content : List Char) :
    Passes Fault.stoppedBy (delimited delimiter n content) := by
  induction n generalizing content
  case zero => exact passes_unexpected delimiter
  case succ n hi =>
    refine passes_read.bind fun c => ?_
    split
    case isTrue => exact passes_pure _
    split
    case isTrue =>
      refine passes_read.bind fun c => ?_
      cases Reader.unescape? delimiter c
      case some c => exact hi (c :: content)
      case none => exact passes_unexpected c
    case isFalse => exact hi (c :: content)

theorem passes_lambda (compile : Bytes → Except Fault C) (n : Nat) :
    Passes Fault.stoppedBy (lambda compile n) := by
  refine (passes_delimited '\'' n []).bind fun text => ?_
  cases compile text
  case ok => exact passes_pure _
  case error => exact passes_throw fun stop => by cases stop <;> rfl

section Parts

variable {expr : Char → Reading Fault (Expr C)} (h : ∀ c, Passes Fault.stoppedBy (expr c))

include h

theorem passes_sub (n : Nat) : Passes Fault.stoppedBy (sub expr n) :=
  (passes_next n).bind h

theorem passes_cond (n : Nat) : Passes Fault.stoppedBy (cond expr n) := by
  refine (passes_sub h n).bind fun test => ?_
  refine (passes_sub h n).bind fun yes => ?_
  exact (passes_sub h n).bind fun no => passes_pure _

theorem passes_args (n : Nat) (earlier : List (Expr C)) :
    Passes Fault.stoppedBy (args expr n earlier) := by
  induction n generalizing earlier
  case zero => exact passes_unexpected ')'
  case succ n hi =>
    refine (passes_next (n + 1)).bind fun c => ?_
    split
    case isTrue => exact passes_pure _
    case isFalse => exact (h c).bind fun arg => hi (arg :: earlier)

theorem passes_call (n : Nat) : Passes Fault.stoppedBy (call expr n) := by
  refine (passes_next n).bind fun c => ?_
  split
  case isTrue => exact passes_pure _
  case isFalse =>
    refine (h c).bind fun callee => ?_
    exact (passes_args h n []).bind fun args => passes_pure _

end Parts

theorem passes_expr (compile : Bytes → Except Fault C) (n : Nat) (c : Char) :
    Passes Fault.stoppedBy (expr compile n c) := by
  induction n generalizing c
  case zero => exact passes_unexpected c
  case succ n hi =>
    rw [expr]
    repeat' split
    · exact (passes_delimited c n []).map
    · exact passes_cond hi n
    · exact passes_lambda compile n
    · exact passes_call hi n
    · exact (passes_delimited '~' n []).map
    · exact passes_unexpected c

theorem passes_whole (compile : Bytes → Except Fault C) (n : Nat) :
    Passes Fault.stoppedBy (whole compile n) :=
  ((passes_space n).adapt fun _ => rfl).bind (passes_expr compile n)

end Reading

namespace Reader

variable {C : Type} {compile : Bytes → Except Fault C} {r r' : Reader C} {rs rest : List Rune} {f : Fault}

theorem failingWith_of_run_failed (h : r.run compile rs = (.failed f, rest)) (e : Fault) :
    f.failingWith e = f := by
  have hr := refuses_runChars compile r (rs.map Rune.char)
  rw [runChars_map, h] at hr
  rcases hr with ⟨c, rfl⟩ | ⟨_, _, _, rfl⟩ <;> rfl

theorem run_of_more (h : r.run compile rs = (.more r', rest)) : rest = [] := by
  have hc : r.runChars compile (rs.map Rune.char) = (.more r', rest.map Rune.char) := by
    rw [runChars_map, h]
  exact List.map_eq_nil_iff.mp (runChars_of_more hc)

end Reader

namespace Expr

open Grammar Reader

variable {C : Type} {compile : Bytes → Except Fault C} {text p q : Bytes} {f : Fault} {ex : Expr C}

theorem parse_failing (compile : Bytes → Except Fault C) (text : Bytes) (e : Fault) :
    parse compile ⟨text, some e⟩ =
      ((parse compile ⟨text, none⟩).1.mapError (·.failingWith e),
        ⟨(parse compile ⟨text, none⟩).2.unread, some e⟩) := by
  have ⟨outcome, rest, h⟩ := Reading.passes_whole compile (text.length + 1) text
  rw [parse, parse, h, h]
  cases outcome <;> rfl

theorem parse_failure (compile : Bytes → Except Fault C) (s : Source) :
    (parse compile s).2.failure = s.failure := by
  have ⟨outcome, rest, h⟩ := Reading.passes_whole compile (s.unread.length + 1) s.unread
  rw [parse, h]

theorem unread_of_parse_end (h : (parse compile ⟨text, none⟩).1 = .error f)
    (hf : f = .empty ∨ f = .incomplete) : (parse compile ⟨text, none⟩).2.unread = [] := by
  rcases hr : Reader.run compile {} text.runes with ⟨progress, rest⟩
  cases progress <;> simp only [parse_eq_readFrom, readFrom, hr] at h ⊢
  case more r =>
    rw [run_of_more hr]
    rfl
  case done => cases h
  case failed =>
    -- Were it about the end of the text, every failure would take its place.
    cases h
    have he := failingWith_of_run_failed hr .endOfInput
    rcases hf with rfl | rfl <;> cases he

theorem parse_failing_of_end (h : (parse compile ⟨text, none⟩).1 = .error f)
    (hf : f = .empty ∨ f = .incomplete) (e : Fault) :
    parse compile ⟨text, some e⟩ = (.error e, ⟨[], some e⟩) := by
  rw [parse_failing, h, unread_of_parse_end h hf]
  rcases hf with rfl | rfl <;> rfl

theorem parse_of_read {outcome : Except Fault (Expr C)} (h : read compile text = outcome)
    (hc : ∀ c, outcome ≠ .error (.trailing c)) : (parse compile ⟨text, none⟩).1 = outcome := by
  rcases hp : parse compile ⟨text, none⟩ with ⟨first, s⟩
  rw [read, hp] at h
  cases first
  case error => exact h
  case ok =>
    simp only at h
    split at h
    case h_1 => exact h
    case h_2 c _ _ => exact absurd h.symm (hc c)

theorem parseTimes_failing (compile : Bytes → Except Fault C) (text : Bytes) (e : Fault) (n : Nat) :
    parseTimes compile n ⟨text, some e⟩ =
      (parseTimes compile n ⟨text, none⟩).map (·.mapError (·.failingWith e)) := by
  induction n generalizing text
  case zero => rfl
  case succ n hi =>
    have hn : (parse compile ⟨text, none⟩).2 = ⟨(parse compile ⟨text, none⟩).2.unread, none⟩ :=
      congrArg (Source.mk _) (parse_failure compile ⟨text, none⟩)
    rw [parseTimes, parse_failing, parseTimes, List.map_cons, hi, ← hn]

theorem parse_failing_of_read_append (h : read compile (p ++ q) = .ok ex) (e : Fault) :
    parse compile ⟨p, some e⟩ = (.error e, ⟨[], some e⟩) ∨
      ((parse compile ⟨p, some e⟩).1 = .ok ex ∧ IsBlank q.chars) := by
  rcases read_append h with ⟨hempty, _⟩ | hincomplete | ⟨hok, hblank⟩
  · exact .inl (parse_failing_of_end (parse_of_read hempty (by simp)) (.inl rfl) e)
  · exact .inl (parse_failing_of_end (parse_of_read hincomplete (by simp)) (.inr rfl) e)
  · refine .inr ⟨?_, hblank⟩
    rw [parse_failing, parse_of_read hok (by simp)]
    rfl

theorem parse_passes_failure_unchanged (compile : Bytes → Except Fault C) (text : Bytes) (e : Fault) :
    parse compile ⟨text, some e⟩ =
      ((parse compile ⟨text, none⟩).1.mapError (·.failingWith e),
        ⟨(parse compile ⟨text, none⟩).2.unread, some e⟩) ∧
    (∀ f, (parse compile ⟨text, none⟩).1 = .error f → f = .empty ∨ f = .incomplete →
      parse compile ⟨text, some e⟩ = (.error e, ⟨[], some e⟩)) ∧
    (∀ n, parseTimes compile n ⟨text, some e⟩ =
      (parseTimes compile n ⟨text, none⟩).map (·.mapError (·.failingWith e))) ∧
    ∀ p q ex, text = p ++ q → read compile text = .ok ex →
      parse compile ⟨p, some e⟩ = (.error e, ⟨[], some e⟩) ∨
        ((parse compile ⟨p, some e⟩).1 = .ok ex ∧ IsBlank q.chars) := by
  refine ⟨parse_failing compile text e, fun f h hf => parse_failing_of_end h hf e,
    parseTimes_failing compile text e, fun p q ex ht h => ?cut⟩
  case cut =>
    rw [ht] at h
    exact parse_failing_of_read_append h e

-- The source breaks off after a backslash, between the arguments of a call, in the literal behind a first
-- expression, and behind a lambda whose compiler itself speaks of an end.
theorem parse_passes_failure_unchanged_midway :
    let torn : Fault := .plain "torn"
    let call : Expr Bytes := .call (.lambda "+") [.str "it's", .nil]
    ((parse Script.compile ⟨"(`+''it\\", none⟩).1 = .error .incomplete ∧
      parse Script.compile ⟨"(`+''it\\", some torn⟩ = (.error torn, ⟨[], some torn⟩)) ∧
    (read Script.compile ("(`+''it\\'s'" ++ " ())") = .ok call ∧
      parse Script.compile ⟨"(`+''it\\'s'", some torn⟩ = (.error torn, ⟨[], some torn⟩)) ∧
    parseTimes Script.compile 3 ⟨"() 'b", some torn⟩ = [.ok .nil, .error torn, .error torn] ∧
    (parse (C := Bytes) (fun _ => .error .incomplete) ⟨"(`+' ", some torn⟩) =
      (.error (.uncompiled .incomplete), ⟨" ", some torn⟩) := by
  intro torn call
  have hend : (parse Script.compile ⟨"(`+''it\\", none⟩).1 = .error .incomplete := by
    rw [parse_eq_readFrom]
    rfl
  have hcall : read Script.compile ("(`+''it\\'s'" ++ " ())") = .ok call := by
    rw [read_eq_readChars]
    rfl
  refine ⟨⟨hend, ?backslash⟩, ⟨hcall, ?between⟩, ?behind, ?compiler⟩
  case backslash => exact (parse_passes_failure_unchanged _ _ torn).2.1 _ hend (.inr rfl)
  case between =>
    refine ((parse_passes_failure_unchanged _ _ torn).2.2.2 _ _ _ rfl hcall).resolve_right ?_
    intro ⟨_, hblank⟩
    exact absurd (hblank '(' (by decide +kernel)) (by decide)
  case behind =>
    refine ((parse_passes_failure_unchanged _ _ torn).2.2.1 3).trans ?_
    simp only [parseTimes, parse_eq_readFrom]
    rfl
  case compiler =>
    refine (parse_passes_failure_unchanged _ _ torn).1.trans ?_
    rw [parse_eq_readFrom]
    rfl

end Expr
end TapeShell
