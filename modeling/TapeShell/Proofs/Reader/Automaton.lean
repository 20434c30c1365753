import TapeShell.Expr.Reader
import TapeShell.Proofs.Text.Runes

namespace TapeShell

namespace Reader

variable {C : Type}

-- An expression of which some part is still to be read. Arguments are in reverse order.
inductive Frame (C : Type) where
  | test
  | yes (test : Expr C)
  | no (test yes : Expr C)
  | callee
  | arg (callee : Expr C) (args : List (Expr C))

inductive Literal where
  | str (quote : Char)
  | lambda
  | macroName
  deriving DecidableEq, Repr

def Literal.delimiter : Literal → Char
  | .str quote => quote
  | .lambda => '\''
  | .macroName => '~'

inductive Place where
  | between
  | inside (literal : Literal) (content : List Char)
  | escaped (literal : Literal) (content : List Char)
  deriving DecidableEq, Repr

end Reader

-- The reader as an automaton: instead of being inside calls of functions, it keeps the expressions that
-- it is inside of.
structure Reader (C : Type) where
  frames : List (Reader.Frame C) := []
  place : Reader.Place := .between

namespace Reader

variable {C α β : Type}

inductive Progress (C : Type) where
  | more (r : Reader C)
  | done (e : Expr C)
  | failed (f : Fault)

def supply : List (Frame C) → Expr C → Progress C
  | [], e => .done e
  | .test :: frames, e => .more ⟨.yes e :: frames, .between⟩
  | .yes test :: frames, e => .more ⟨.no test e :: frames, .between⟩
  | .no test yes :: frames, e => supply frames (.cond test yes e)
  | .callee :: frames, e => .more ⟨.arg e [] :: frames, .between⟩
  | .arg callee args :: frames, e => .more ⟨.arg callee (e :: args) :: frames, .between⟩

def closeCall : List (Frame C) → Progress C
  | .callee :: frames => supply frames .nil
  | .arg callee args :: frames => supply frames (.call callee args.reverse)
  | _ => .failed (.unexpected ')')

def closeLiteral (compile : Bytes → Except Fault C) (frames : List (Frame C)) (literal : Literal)
    (text : Bytes) : Progress C :=
  match literal with
  | .str _ => supply frames (.str text)
  | .macroName => supply frames (.macroName text)
  | .lambda =>
    match compile text with
    | .ok code => supply frames (.lambda code)
    | .error f => .failed (.uncompiled f)

def start (frames : List (Frame C)) (c : Char) : Progress C :=
  if isSpace c then .more ⟨frames, .between⟩
  else if c = '\'' ∨ c = '"' then .more ⟨frames, .inside (.str c) []⟩
  else if c = '?' then .more ⟨.test :: frames, .between⟩
  else if c = '`' then .more ⟨frames, .inside .lambda []⟩
  else if c = '(' then .more ⟨.callee :: frames, .between⟩
  else if c = '@' then .more ⟨frames, .inside .macroName []⟩
  else if c = ')' then closeCall frames
  else .failed (.unexpected c)

def step (compile : Bytes → Except Fault C) (r : Reader C) (c : Char) : Progress C :=
  match r.place with
  | .between => start r.frames c
  | .inside literal content =>
    if c = literal.delimiter then
      closeLiteral compile r.frames literal (Bytes.ofChars content.reverse)
    else if c = '\\' then .more { r with place := .escaped literal content }
    else .more { r with place := .inside literal (c :: content) }
  | .escaped literal content =>
    match unescape? literal.delimiter c with
    | some c => .more { r with place := .inside literal (c :: content) }
    | none => .failed (.unexpected c)

def run (compile : Bytes → Except Fault C) (r : Reader C) : List Rune → Progress C × List Rune
  | [] => (.more r, [])
  | c :: cs =>
    match r.step compile c.char with
    | .more r => r.run compile cs
    | .done e => (.done e, cs)
    | .failed f => (.failed f, cs)

def isFresh : Reader C → Bool
  | ⟨[], .between⟩ => true
  | _ => false

def atEnd (r : Reader C) : Fault :=
  if r.isFresh then .empty else .incomplete

theorem atEnd_of_literal {frames : List (Frame C)} {place : Place} (h : place ≠ .between) :
    atEnd ⟨frames, place⟩ = .incomplete := by
  cases place
  case between => contradiction
  all_goals cases frames <;> rfl

section Source

variable (compile : Bytes → Except Fault C)

def readFrom (r : Reader C) : Reading Fault (Expr C) := fun s =>
  match r.run compile s.unread.runes with
  | (.done e, rest) => (.ok e, s.rest (Bytes.ofRunes rest))
  | (.failed f, rest) => (.error f, s.rest (Bytes.ofRunes rest))
  | (.more r, rest) => (.error (s.failure.getD r.atEnd), s.rest (Bytes.ofRunes rest))

def Progress.readOn : Progress C → Reading Fault (Expr C)
  | .more r => r.readFrom compile
  | .done e => pure e
  | .failed f => throw f

end Source

variable {compile : Bytes → Except Fault C}

theorem readFrom_eq (r : Reader C) : r.readFrom compile =
    Source.readRune.adapt (·.getD r.atEnd) >>= fun c => (r.step compile c).readOn compile := by
  funext ⟨unread, failure⟩
  rw [Reading.bind_apply, Reading.adapt_apply, readFrom, Source.readRune]
  cases h : unread.cutRune?
  case none =>
    cases Bytes.eq_nil_of_cutRune? h
    rfl
  case some cut =>
    rcases cut with ⟨c, rest⟩
    simp only [Bytes.runes_of_cutRune? h, run]
    change _ = (r.step compile c.char).readOn compile ⟨rest, failure⟩
    cases r.step compile c.char
    case more => rfl
    all_goals exact congrArg (fun unread => (_, Source.mk unread failure)) (Bytes.ofRunes_runes rest)

inductive Tracks (compile : Bytes → Except Fault C) (d : Nat) (p : Progress C) (k : α → Progress C)
    (s : Source) : Except Fault α × Source → Prop
  | ok {a : α} {s' : Source} (shorter : s'.unread.length + d ≤ s.unread.length)
    (same : p.readOn compile s = (k a).readOn compile s') : Tracks compile d p k s (.ok a, s')
  | error {f : Fault} {s' : Source} (same : p.readOn compile s = (.error f, s')) :
    Tracks compile d p k s (.error f, s')

-- On a source with fewer than `n` bytes the automaton at `p` does what `x` does, and goes on at `k a` when
-- `x` gives `a` and has taken at least `d` bytes.
def Follows (compile : Bytes → Except Fault C) (n d : Nat) (p : Progress C) (x : Reading Fault α)
    (k : α → Progress C) : Prop :=
  ∀ s : Source, s.unread.length < n → Tracks compile d p k s (x s)

namespace Follows

variable {n d : Nat} {p : Progress C} {x : Reading Fault α} {k : α → Progress C}

theorem zero : Follows compile 0 d p x k :=
  fun _ hs => absurd hs (Nat.not_lt_zero _)

theorem pure {a : α} (h : p = k a) : Follows compile n 0 p (Pure.pure a) k :=
  fun _ _ => .ok (Nat.le_refl _) (h ▸ rfl)

theorem throw (f : Fault) : Follows compile n d (.failed f) (MonadExcept.throw f) k :=
  fun _ _ => .error rfl

theorem mono {n' d' : Nat} (h : Follows compile n d p x k) (hn : n' ≤ n) (hd : d' ≤ d) :
    Follows compile n' d' p x k := by
  intro s hs
  have hx := h s (by omega)
  generalize x s = outcome at hx ⊢
  cases hx
  case ok shorter same => exact .ok (by omega) same
  case error same => exact .error same

theorem weaken (h : Follows compile n d p x k) : Follows compile n 0 p x k :=
  h.mono (Nat.le_refl n) (Nat.zero_le d)

theorem bind {f : α → Reading Fault β} {l : β → Progress C} (hx : Follows compile n d p x k)
    (hf : ∀ a, Follows compile (n - d) 0 (k a) (f a) l) : Follows compile n d p (x >>= f) l := by
  intro s hs
  have hx := hx s hs
  rw [Reading.bind_apply]
  generalize x s = outcome at hx ⊢
  cases hx
  case error same => exact .error same
  case ok a s' shorter same =>
    have hf := hf a s' (by omega)
    simp only
    generalize f a s' = outcome at hf ⊢
    cases hf
    case error same' => exact .error (same.trans same')
    case ok shorter' same' => exact .ok (by omega) (same.trans same')

theorem map {f : α → β} {l : β → Progress C} (hx : Follows compile n d p x fun a => l (f a)) :
    Follows compile n d p (f <$> x) l :=
  hx.bind fun _ => .pure rfl

theorem readRune (compile : Bytes → Except Fault C) (n : Nat) (r : Reader C) : Follows compile n 1 (.more r)
    (Source.readRune.adapt (·.getD r.atEnd)) (r.step compile) := by
  intro s _
  have hr : (Progress.more r).readOn compile s = _ := congrFun (readFrom_eq r) s
  rw [Reading.bind_apply] at hr
  rw [Reading.adapt_apply, Source.readRune] at hr ⊢
  cases h : s.unread.cutRune? <;> rw [h] at hr
  case none => exact .error hr
  case some cut => exact .ok (Bytes.length_of_cutRune? h) hr

theorem read (compile : Bytes → Except Fault C) (n : Nat) (frames : List (Frame C)) (place : Place)
    (h : place ≠ .between) :
    Follows compile n 1 (.more ⟨frames, place⟩) Reading.read (step compile ⟨frames, place⟩) := by
  have hr := Follows.readRune compile n ⟨frames, place⟩
  rwa [atEnd_of_literal h] at hr

end Follows

def opening (frames : List (Frame C)) (c : Char) : Progress C :=
  if isSpace c then .failed (.unexpected c) else start frames c

theorem space_follows (frames : List (Frame C)) (n : Nat) : Follows compile n 1 (.more ⟨frames, .between⟩)
    ((Reading.space n).adapt (·.getD (atEnd ⟨frames, .between⟩))) (opening frames) := by
  induction n
  case zero => exact .zero
  case succ n hi =>
    rw [Reading.space, Reading.adapt_bind]
    refine (Follows.readRune compile (n + 1) ⟨frames, .between⟩).bind fun c => ?_
    cases hc : isSpace c
    case true =>
      have hs : step compile ⟨frames, .between⟩ c = .more ⟨frames, .between⟩ := by simp [step, start, hc]
      rw [hs]
      exact hi.weaken
    case false =>
      have hs : step compile ⟨frames, .between⟩ c = opening frames c := by simp [step, opening, hc]
      rw [hs]
      exact .pure rfl

theorem next_follows (frame : Frame C) (frames : List (Frame C)) (n : Nat) :
    Follows compile n 1 (.more ⟨frame :: frames, .between⟩) (Reading.next n) (opening (frame :: frames)) :=
  space_follows (frame :: frames) n

theorem delimited_follows (frames : List (Frame C)) (literal : Literal) (n : Nat) (content : List Char) :
    Follows compile n 0 (.more ⟨frames, .inside literal content⟩)
      (Reading.delimited literal.delimiter n content) (closeLiteral compile frames literal) := by
  induction n generalizing content
  case zero => exact .zero
  case succ n hi =>
    refine ((Follows.read compile (n + 1) frames (.inside literal content) nofun).bind fun c => ?_).weaken
    simp only [step]
    split
    case isTrue => exact .pure rfl
    case isFalse =>
      split
      case isTrue =>
        refine ((Follows.read compile n frames (.escaped literal content) nofun).bind fun c => ?_).weaken
        simp only [step]
        cases unescape? literal.delimiter c
        case some c => exact (hi (c :: content)).mono (Nat.sub_le n 1) (Nat.le_refl 0)
        case none => exact .throw _
      case isFalse => exact hi (c :: content)

theorem lambda_follows (frames : List (Frame C)) (n : Nat) :
    Follows compile n 0 (.more ⟨frames, .inside .lambda []⟩) (Reading.lambda compile n) (supply frames) := by
  refine (delimited_follows frames .lambda n []).bind fun text => ?_
  rw [closeLiteral]
  cases compile text
  case ok code => exact .pure rfl
  case error f => exact .throw _

section Parts

variable {n : Nat} {expr : Char → Reading Fault (Expr C)}

-- `expr` reads what starts with a character. A parenthesis starts nothing, where it closes nothing.
def ReadsParts (compile : Bytes → Except Fault C) (n : Nat) (expr : Char → Reading Fault (Expr C)) : Prop :=
  ∀ frames c, (c = ')' → closeCall frames = .failed (.unexpected ')')) →
    Follows compile n 0 (opening frames c) (expr c) (supply frames)

namespace ReadsParts

theorem sub (h : ReadsParts compile (n - 1) expr) (frame : Frame C) (frames : List (Frame C))
    (hf : closeCall (frame :: frames) = .failed (.unexpected ')')) :
    Follows compile n 0 (.more ⟨frame :: frames, .between⟩) (Reading.sub expr n) (supply (frame :: frames)) :=
  ((next_follows frame frames n).bind fun c => h _ c fun _ => hf).weaken

theorem cond (h : ReadsParts compile (n - 1) expr) (frames : List (Frame C)) :
    Follows compile n 0 (.more ⟨.test :: frames, .between⟩) (Reading.cond expr n) (supply frames) := by
  refine (h.sub .test frames rfl).bind fun test => ?_
  refine (h.sub (.yes test) frames rfl).bind fun yes => ?_
  exact (h.sub (.no test yes) frames rfl).bind fun no => .pure rfl

theorem args {m : Nat} (h : ReadsParts compile n expr) (hm : m ≤ n + 1) (callee : Expr C)
    (frames : List (Frame C)) (earlier : List (Expr C)) :
    Follows compile m 0 (.more ⟨.arg callee earlier :: frames, .between⟩) (Reading.args expr m earlier)
      fun args => supply frames (.call callee args) := by
  induction m generalizing earlier
  case zero => exact .zero
  case succ m hi =>
    refine ((next_follows _ frames (m + 1)).bind fun c => ?_).weaken
    split
    case isTrue hc =>
      subst hc
      exact .pure rfl
    case isFalse hc =>
      -- The bound of the loop goes down with each argument, and that of `expr` stays.
      refine ((h _ c (absurd · hc)).mono (by omega) (Nat.le_refl 0)).bind fun arg => ?_
      exact hi (by omega) (arg :: earlier)

theorem call (h : ReadsParts compile (n - 1) expr) (frames : List (Frame C)) :
    Follows compile n 0 (.more ⟨.callee :: frames, .between⟩) (Reading.call expr n) (supply frames) := by
  refine ((next_follows _ frames n).bind fun c => ?_).weaken
  split
  case isTrue hc =>
    subst hc
    exact .pure rfl
  case isFalse hc =>
    refine (h _ c (absurd · hc)).bind fun callee => ?_
    have ha := h.args (show n ≤ n - 1 + 1 by omega) callee frames []
    exact (ha.mono (Nat.sub_le n 1) (Nat.le_refl 0)).bind fun args => .pure rfl

end ReadsParts

theorem readsParts_expr (compile : Bytes → Except Fault C) (n : Nat) :
    ReadsParts compile n (Reading.expr compile (n + 1)) := by
  induction n
  case zero => exact fun _ _ _ => .zero
  case succ n hi =>
    -- Every part of an expression is read after one more rune, so the bound may go down by one.
    intro frames c hc
    rw [Reading.expr]
    split
    case isTrue h =>
      have ho : opening frames c = .more ⟨frames, .inside (.str c) []⟩ := by
        rcases h with rfl | rfl <;> rfl
      rw [ho]
      exact .map (f := Expr.str) (delimited_follows frames (.str c) (n + 1) [])
    split
    case isTrue h =>
      subst h
      exact hi.cond frames
    split
    case isTrue h =>
      subst h
      exact lambda_follows frames (n + 1)
    split
    case isTrue h =>
      subst h
      exact hi.call frames
    split
    case isTrue h =>
      subst h
      exact .map (f := Expr.macroName) (delimited_follows frames .macroName (n + 1) [])
    case isFalse =>
      have ho : opening frames c = .failed (.unexpected c) := by
        by_cases hp : c = ')'
        case pos =>
          subst hp
          exact hc rfl
        case neg => simp [opening, start, *]
      rw [ho]
      exact .throw _

end Parts

theorem whole_follows (compile : Bytes → Except Fault C) (n : Nat) :
    Follows compile n 1 (.more {}) (Reading.whole compile n) .done := by
  cases n
  case zero => exact .zero
  case succ n =>
    exact (space_follows [] (n + 1)).bind fun c => readsParts_expr compile n [] c fun _ => rfl

end Reader

theorem Expr.parse_eq_readFrom {C : Type} (compile : Bytes → Except Fault C) (s : Source) :
    parse compile s = Reader.readFrom compile {} s := by
  have hw := Reader.whole_follows compile (s.unread.length + 1) s (Nat.lt_succ_self _)
  rw [parse]
  generalize Reading.whole compile (s.unread.length + 1) s = outcome at hw ⊢
  cases hw
  case ok same => exact same.symm
  case error same => exact same.symm

end TapeShell
