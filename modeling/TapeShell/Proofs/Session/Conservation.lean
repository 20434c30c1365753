import TapeShell.Deck
import TapeShell.Proofs.Eval.Recorded
import TapeShell.Proofs.Reader.Completion
import TapeShell.Proofs.Session.Quit

namespace TapeShell.Session

open Grammar Machine

instance (cs : List Char) : Decidable (IsBlank cs) :=
  decidable_of_iff (cs.all Reader.isSpace) (by simp only [List.all_eq_true, isSpace_iff, IsBlank])

variable {C σ : Type}

structure Round (σ : Type) where
  session : Session
  machine : σ
  line : Bytes

def Round.IsIdle (r : Round σ) : Prop :=
  r.session.phase = .prompting ∧ IsBlank r.line.chars

instance (r : Round σ) : Decidable r.IsIdle :=
  inferInstanceAs (Decidable (_ ∧ _))

def kept (rs : List (Round σ)) : Bytes :=
  (rs.filter (¬·.IsIdle)).flatMap Round.line

theorem kept_cons (r : Round σ) (rs : List (Round σ)) :
    kept (r :: rs) = (if r.IsIdle then [] else r.line) ++ kept rs := by
  by_cases h : r.IsIdle <;> simp [kept, h]

def Turn.recorded (turn : Turn σ) (requests : List (Request C)) : Turn (σ × List (Request C)) :=
  ⟨turn.quit, turn.session, (turn.machine, requests), turn.effects, turn.history⟩

inductive Waits (compile : Bytes → Except Fault C) : Session → Prop
  | prompting : Waits compile {}
  | continuing : Expr.read compile text = .error .incomplete → Waits compile ⟨.continuing, text⟩

def EndsLine (message : Bytes) : Prop :=
  ∃ line, message = line ++ Bytes.ofString "\n"

theorem endsLine_answer (line : Bytes) : ∀ message ∈ written [answer line], EndsLine message :=
  List.forall_mem_singleton.mpr ⟨line, rfl⟩

-- From a session that waits, `text` is taken in, and some of it goes to the history.
structure Conserves (compile : Bytes → Except Fault C) (source : Session) (text : Bytes)
    (target : Session) (history messages : List Bytes) (quit : Bool) : Prop where
  waits    : Waits compile target
  text     : history.flatten ++ target.buffer = source.buffer ++ text
  answered : messages.length + quit.toNat = history.length
  ended    : ∀ message ∈ messages, EndsLine message

section Conserves

variable {compile : Bytes → Except Fault C} {s s' s'' : Session} {p q : Bytes}
  {history history' messages messages' : List Bytes} {quit : Bool}

theorem Conserves.refl (h : Waits compile s) : Conserves compile s [] s [] [] false :=
  ⟨h, (List.append_nil _).symm, rfl, nofun⟩

theorem Conserves.trans (h : Conserves compile s p s' history messages false)
    (h' : Conserves compile s' q s'' history' messages' quit) :
    Conserves compile s (p ++ q) s'' (history ++ history') (messages ++ messages') quit where
  waits    := h'.waits
  text     := by
    rw [List.flatten_append, List.append_assoc, h'.text, ← List.append_assoc, h.text, List.append_assoc]
  answered := by
    have := h.answered
    have := h'.answered
    simp only [List.length_append, Bool.toNat_false] at *
    omega
  ended    := List.forall_mem_append.mpr ⟨h.ended, h'.ended⟩

theorem Conserves.settled (hs : messages.length + quit.toNat = 1)
    (hm : ∀ message ∈ messages, EndsLine message) :
    Conserves compile s p {} [s.buffer ++ p] messages quit :=
  ⟨.prompting, by simp, hs, hm⟩

theorem Waits.phase_cases (h : Waits compile s) :
    s.phase = .prompting ∧ s.buffer = [] ∨
    s.phase = .continuing ∧ Expr.read compile s.buffer = .error .incomplete := by
  cases h
  case prompting => exact .inl ⟨rfl, rfl⟩
  case continuing hr => exact .inr ⟨rfl, hr⟩

theorem Waits.isIdle_iff (h : Waits compile s) (state : σ) (line : Bytes) :
    Round.IsIdle ⟨s, state, line⟩ ↔ Expr.read compile (s.buffer ++ line) = .error .empty := by
  constructor
  case mp =>
    rintro ⟨hp, hb⟩
    cases h
    case prompting => exact Expr.read_blank hb
    case continuing => cases hp
  case mpr =>
    intro he
    rw [Expr.read_eq_readChars] at he
    have ⟨hb, hl⟩ := isBlank_chars_append (Expr.isBlank_of_readChars_empty he)
    cases h
    case prompting => exact ⟨rfl, hl⟩
    case continuing hr =>
      rw [Expr.read_blank hb] at hr
      cases hr

-- Only where a text ends is there a reason to wait for more of it, or to ignore it.
theorem refused_of_read
    (hm : ∀ src f, compile src = .error f → f.holdsIncomplete = false ∧ f.holdsEmpty = false)
    {text : Bytes} {f : Fault} (h : Expr.read compile text = .error f) (he : f ≠ .empty)
    (hi : f ≠ .incomplete) : f.holdsIncomplete = false ∧ f.holdsEmpty = false := by
  rw [Expr.read_eq_readChars] at h
  rcases Expr.readChars_eq_error h with rfl | rfl | ⟨c, rfl⟩ | ⟨c, rfl⟩ | ⟨src, cause, hc, rfl⟩
  case inl => contradiction
  case inr.inl => contradiction
  case inr.inr.inl => exact ⟨rfl, rfl⟩
  case inr.inr.inr.inl => exact ⟨rfl, rfl⟩
  case inr.inr.inr.inr => exact hm src cause hc

end Conserves

variable [Code C]

def rounds (m : Machine C σ) (s : Session) (state : σ) : List Bytes → List (Round σ)
  | [] => []
  | line :: lines =>
    let turn := s.feed m state line
    ⟨s, state, line⟩ :: if turn.quit then [] else turn.session.rounds m turn.machine lines

theorem written_conclude {x : Except Stop (Expr C)} (h : x ≠ .error .hole) :
    (written (conclude x).2).length + (conclude x).1.toNat = 1 ∧
    ∀ message ∈ written (conclude x).2, EndsLine message := by
  rcases x with stop | v
  case ok => exact ⟨rfl, endsLine_answer v.display⟩
  case error =>
    cases hf : stop.fault?
    case none =>
      cases stop
      case hole => exact absurd rfl h
      all_goals cases hf
    case some f =>
      by_cases hq : f.holdsQuit <;> simp only [conclude, hf, hq, Bool.false_eq_true, if_true, if_false]
      case pos => exact ⟨rfl, List.forall_mem_nil _⟩
      case neg => exact ⟨rfl, endsLine_answer _⟩

section Feed

variable {m : Machine C σ} {s : Session} {state : σ} {line : Bytes}

theorem feed_of_refused {f : Fault} (h : Expr.read m.compile (s.buffer ++ line) = .error f)
    (hi : f.holdsIncomplete = false) (he : f.holdsEmpty = false) :
    s.feed m state line =
      ⟨false, {}, state, changePhase s.phase .prompting "input complete" ++
        [answer (report f),
          (.session, .log (.debug "parse failed" [(Log.errorKey, .text f.message)]))],
        some (s.buffer ++ line)⟩ := by
  simp [feed_eq, h, hi, he]

theorem feed_recorded (m : Machine C σ) (s : Session) (state : σ) (line : Bytes)
    (requests : List (Request C)) : ∃ more,
      s.feed m.recorded (state, requests) line = (s.feed m state line).recorded (requests ++ more) ∧
      (more ≠ [] → ∃ e, Expr.read m.compile (s.buffer ++ line) = .ok e) := by
  cases h : Expr.read m.compile (s.buffer ++ line)
  case error f =>
    have h' : Expr.read m.recorded.compile (s.buffer ++ line) = .error f := h
    refine ⟨[], ?_, nofun⟩
    simp only [feed_eq, h, h', List.append_nil]
    repeat' split
    all_goals rfl
  case ok e =>
    have h' : Expr.read m.recorded.compile (s.buffer ++ line) = .ok e := h
    obtain ⟨more, hr⟩ := e.eval_recorded m state requests
    refine ⟨more, ?_, fun _ => ⟨e, rfl⟩⟩
    rw [feed_of_ok h, feed_of_ok h', hr]
    rfl

variable (hm : ∀ src f, m.compile src = .error f → f.holdsIncomplete = false ∧ f.holdsEmpty = false)
include hm

theorem feed_conserves (hs : Waits m.compile s) (state : σ) (line : Bytes) :
    Conserves m.compile s (if Round.IsIdle ⟨s, state, line⟩ then [] else line)
      (s.feed m state line).session (s.feed m state line).history.toList
      (written (s.feed m state line).effects) (s.feed m state line).quit := by
  have hidle := hs.isIdle_iff state line
  have hkept (hne : Expr.read m.compile (s.buffer ++ line) ≠ .error .empty) :
      (if Round.IsIdle ⟨s, state, line⟩ then [] else line) = line :=
    if_neg (mt hidle.mp hne)
  cases h : Expr.read m.compile (s.buffer ++ line)
  case ok e =>
    have ⟨hw, hl⟩ := written_conclude (Expr.eval_ne_hole (m := m) (s := state) e (Expr.isWhole_of_read h))
    rw [hkept (by simp [h]), feed_of_ok h]
    simp only [written_append, written_changePhase, written_machine, List.nil_append]
    exact .settled hw hl
  case error f =>
    by_cases he : f = .empty
    case pos =>
      rw [he] at h
      have hp : s = {} := by
        cases hs
        case prompting => rfl
        case continuing => cases (hidle.mpr h).left
      rw [if_pos (hidle.mpr h), feed_of_empty h, hp]
      exact .refl .prompting
    by_cases hi : f = .incomplete
    case pos =>
      rw [hi] at h
      rw [hkept (by simp [h]), feed_of_incomplete h, written_changePhase]
      exact ⟨.continuing h, rfl, rfl, nofun⟩
    case neg =>
      have ⟨hi, he'⟩ := refused_of_read hm h he hi
      rw [hkept (by simp [h, he]), feed_of_refused h hi he', written_append, written_changePhase]
      exact .settled rfl (endsLine_answer (report f))

theorem feedAll_conserves (hs : Waits m.compile s) (state : σ) (lines : List Bytes) :
    Conserves m.compile s (kept (s.rounds m state lines)) (s.feedAll m state lines).session
      (s.feedAll m state lines).history (written (s.feedAll m state lines).effects)
      (s.feedAll m state lines).quit := by
  induction lines generalizing s state
  case nil => exact .refl hs
  case cons line lines hi =>
    have h := feed_conserves hm hs state line
    simp only [rounds, feedAll, kept_cons, Fed.after, written_append]
    cases hq : (s.feed m state line).quit <;> rw [hq] at h
    case true => simpa [kept, written] using h
    case false => exact h.trans (hi h.waits _)

end Feed

theorem feedAll_accounts {m : Machine C σ}
    (hm : ∀ src f, m.compile src = .error f → f.holdsIncomplete = false ∧ f.holdsEmpty = false)
    (state : σ) (lines : List Bytes) :
    let fed := feedAll m {} state lines
    let rs := rounds m {} state lines
    (fed.session.phase = .prompting ∧ fed.session.buffer = [] ∨
      fed.session.phase = .continuing ∧
        Expr.read m.compile fed.session.buffer = .error .incomplete) ∧
    fed.history.flatten ++ fed.session.buffer = (rs.filter (¬·.IsIdle)).flatMap Round.line ∧
    (written fed.effects).length + fed.quit.toNat = fed.history.length ∧
    (∀ message ∈ written fed.effects, EndsLine message) ∧
    ∀ r ∈ rs, ∀ requests, ∃ more,
      r.session.feed m.recorded (r.machine, requests) r.line =
        (r.session.feed m r.machine r.line).recorded (requests ++ more) ∧
      (more ≠ [] → ∃ e, Expr.read m.compile (r.session.buffer ++ r.line) = .ok e) := by
  intro fed rs
  have h := feedAll_conserves hm .prompting state lines
  exact ⟨h.waits.phase_cases, h.text, h.answered, h.ended,
    fun r _ => feed_recorded m r.session r.machine r.line⟩

-- A blank line, a call in three lines of which one is blank, two lines that do not read, and one that
-- quits before the last.
theorem feedAll_accounts_until_quit :
    let m := Deck.machine { clock := fun n => { unix := n } }
    let lines : List Bytes := [" \n", "(@A~\n", "\n", " 'b')\n", "`!'\n", ")\n", "@quit~\n", "'late'\n"]
    let fed := feedAll m {} {} lines
    (∀ src f, m.compile src = .error f → f.holdsIncomplete = false ∧ f.holdsEmpty = false) ∧
    fed.history.flatten ++ fed.session.buffer = Bytes.ofString "(@A~\n\n 'b')\n`!'\n)\n@quit~\n" ∧
    fed.quit = true ∧ fed.history.length = 4 ∧
    (written fed.effects).length + fed.quit.toNat = fed.history.length := by
  have hm (src : Bytes) (f : Fault) (h : Tape.Program.read src = .error f) :
      f.holdsIncomplete = false ∧ f.holdsEmpty = false := by
    unfold Tape.Program.read at h
    split at h <;> cases h
    exact ⟨rfl, rfl⟩
  have ⟨_, ht, ha, _, _⟩ := feedAll_accounts (m := Deck.machine { clock := fun n => { unix := n } }) hm {}
    [" \n", "(@A~\n", "\n", " 'b')\n", "`!'\n", ")\n", "@quit~\n", "'late'\n"]
  exact ⟨hm, ht.trans (by decide +kernel), by decide +kernel, by decide +kernel, ha⟩

end TapeShell.Session
