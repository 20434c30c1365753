import TapeShell.Machine.Scripted
import TapeShell.Proofs.Reader.Prefix
import TapeShell.Session.Basic

namespace TapeShell.Session

open Grammar

variable {C σ : Type}

structure Fed (C σ : Type) where
  quit : Bool
  session : Session
  machine : σ
  effects : List (Origin × Effect)
  history : List Bytes
  evaluated : List (Expr C)

def evaluated? (m : Machine C σ) (s : Session) (line : Bytes) : Option (Expr C) :=
  (Expr.read m.compile (s.buffer ++ line)).toOption

theorem evaluated?_of_error {m : Machine C σ} {s : Session} {line : Bytes} {f : Fault}
    (h : Expr.read m.compile (s.buffer ++ line) = .error f) : s.evaluated? m line = none := by
  rw [evaluated?, h]
  rfl

theorem evaluated?_of_ok {m : Machine C σ} {s : Session} {line : Bytes} {e : Expr C}
    (h : Expr.read m.compile (s.buffer ++ line) = .ok e) : s.evaluated? m line = some e := by
  rw [evaluated?, h]
  rfl

def Fed.after (turn : Turn σ) (evaluated : Option (Expr C)) (fed : Fed C σ) : Fed C σ :=
  { fed with
    effects := turn.effects ++ fed.effects
    history := turn.history.toList ++ fed.history
    evaluated := evaluated.toList ++ fed.evaluated }

variable [Code C]

def feedAll (m : Machine C σ) (s : Session) (state : σ) : List Bytes → Fed C σ
  | [] => ⟨false, s, state, [], [], []⟩
  | piece :: pieces =>
    let turn := s.feed m state piece
    let rest :=
      if turn.quit then ⟨true, turn.session, turn.machine, [], [], []⟩
      else turn.session.feedAll m turn.machine pieces
    rest.after turn (s.evaluated? m piece)

-- All effects but what the session logs about itself: what is written, and what the machine does.
def outward (effects : List (Origin × Effect)) : List (Origin × Effect) :=
  effects.filter fun
    | (.session, .log _) => false
    | _ => true

theorem outward_append (es fs : List (Origin × Effect)) :
    outward (es ++ fs) = outward es ++ outward fs :=
  List.filter_append ..

theorem outward_changePhase (source target : Phase) (message : Bytes) :
    outward (changePhase source target message) = [] := by
  rw [changePhase]
  split <;> rfl

section Feed

variable {m : Machine C σ} {s : Session} {state : σ} {line : Bytes}

theorem feed_of_empty (h : Expr.read m.compile (s.buffer ++ line) = .error .empty) :
    s.feed m state line =
      ⟨false, {}, state, changePhase s.phase .prompting "input complete", none⟩ := by
  simp [feed_eq, h, Fault.holdsIncomplete, Fault.holdsEmpty, Fault.chain]

theorem feed_of_incomplete (h : Expr.read m.compile (s.buffer ++ line) = .error .incomplete) :
    s.feed m state line =
      ⟨false, ⟨.continuing, s.buffer ++ line⟩, state,
        changePhase s.phase .continuing "incomplete input", none⟩ := by
  simp [feed_eq, h, Fault.holdsIncomplete, Fault.chain]

theorem feed_of_ok {e : Expr C} (h : Expr.read m.compile (s.buffer ++ line) = .ok e) :
    s.feed m state line =
      ⟨(conclude (e.eval m state).value).1, {}, (e.eval m state).state,
        changePhase s.phase .prompting "input complete" ++ (e.eval m state).effects.map (.machine, ·) ++
          (conclude (e.eval m state).value).2,
        some (s.buffer ++ line)⟩ := by
  rw [feed_eq, h]

end Feed

structure Fed.Evaluates (m : Machine C σ) (state : σ) (e : Expr C) (fed : Fed C σ) : Prop where
  quit      : fed.quit = (conclude (e.eval m state).value).1
  session   : fed.session = {}
  machine   : fed.machine = (e.eval m state).state
  effects   : outward fed.effects =
    outward ((e.eval m state).effects.map (.machine, ·) ++ (conclude (e.eval m state).value).2)
  history   : ∃ item, fed.history = [item] ∧ Expr.read m.compile item = .ok e
  evaluated : fed.evaluated = [e]

section Pieces

variable {m : Machine C σ} {state : σ} {e : Expr C}

theorem Fed.Evaluates.after {fed : Fed C σ} {turn : Turn σ} (h : fed.Evaluates m state e)
    (he : outward turn.effects = []) (hh : turn.history = none) :
    (fed.after turn none).Evaluates m state e where
  quit      := h.quit
  session   := h.session
  machine   := h.machine
  effects   := by rw [Fed.after, outward_append, he, List.nil_append, h.effects]
  history   := by simpa [Fed.after, hh] using h.history
  evaluated := h.evaluated

theorem feedAll_blank {pieces : List Bytes} (h : IsBlank (Bytes.chars pieces.flatten)) :
    feedAll m {} state pieces = ⟨false, {}, state, [], [], []⟩ := by
  induction pieces
  case nil => rfl
  case cons piece pieces hi =>
    have ⟨hp, hs⟩ := isBlank_chars_append (List.flatten_cons ▸ h)
    have hr : Expr.read m.compile ([] ++ piece) = .error .empty := Expr.read_blank hp
    rw [feedAll, feed_of_empty hr, evaluated?_of_error hr]
    simp only [Bool.false_eq_true, if_false]
    rw [hi hs]
    rfl

-- As long as the buffer does not read by itself, what is in it goes with the pieces to come.
theorem feedAll_evaluates {s : Session} {pieces : List Bytes}
    (h : Expr.read m.compile (s.buffer ++ pieces.flatten) = .ok e)
    (hs : ∀ e', Expr.read m.compile s.buffer ≠ .ok e') :
    (feedAll m s state pieces).Evaluates m state e := by
  induction pieces generalizing s
  case nil => exact absurd (List.append_nil s.buffer ▸ h) (hs e)
  case cons piece pieces hi =>
    rw [List.flatten_cons, ← List.append_assoc] at h
    rw [feedAll]
    rcases Expr.read_append h with ⟨hr, hq⟩ | hr | ⟨hr, hb⟩
    case inl =>
      rw [feed_of_empty hr, evaluated?_of_error hr]
      exact (hi (s := {}) hq (by simp [Expr.read_nil])).after (outward_changePhase ..) rfl
    case inr.inl =>
      rw [feed_of_incomplete hr, evaluated?_of_error hr]
      exact (hi (s := ⟨_, _⟩) h (by simp [hr])).after (outward_changePhase ..) rfl
    case inr.inr =>
      rw [feed_of_ok hr, evaluated?_of_ok hr]
      have hrest (q : Bool) (state' : σ) :
          (if q then ⟨true, {}, state', [], [], []⟩ else feedAll m {} state' pieces) =
            (⟨q, {}, state', [], [], []⟩ : Fed C σ) := by
        cases q <;> simp [feedAll_blank hb]
      simp only [hrest]
      refine ⟨rfl, rfl, rfl, ?_, ⟨_, rfl, hr⟩, rfl⟩
      simp [Fed.after, outward_append, outward_changePhase]

end Pieces

theorem feedAll_eq_feed (m : Machine C σ) (state : σ) {text : Bytes} {e : Expr C}
    {pieces : List Bytes} (h : Expr.read m.compile text = .ok e) (hp : pieces.flatten = text) :
    (feedAll m {} state pieces).evaluated = [e] ∧
    (feedAll m {} state pieces).machine = (e.eval m state).state ∧
    (feedAll m {} state pieces).machine = (feed m {} state text).machine ∧
    outward (feedAll m {} state pieces).effects = outward (feed m {} state text).effects ∧
    (feedAll m {} state pieces).quit = (feed m {} state text).quit ∧
    (∃ item, (feedAll m {} state pieces).history = [item] ∧ Expr.read m.compile item = .ok e) ∧
    (feedAll m {} state pieces).session = {} := by
  have he : (feedAll m {} state pieces).Evaluates m state e :=
    feedAll_evaluates (hp ▸ h) (by simp [Expr.read_nil])
  have ht : feed m {} state text = _ := feed_of_ok h
  rw [ht]
  refine ⟨he.evaluated, he.machine, he.machine, ?effects, he.quit, he.history, he.session⟩
  case effects => simp [he.effects, outward_append, outward_changePhase]

-- A call whose text is cut before it, inside its code, inside a character, and before its end.
theorem feedAll_eq_feed_call_in_pieces :
    Expr.read Script.compile " (`+''é')\n" = .ok (.call (.lambda "+") [.str "é"]) ∧
    List.flatten [[0x20], [], [0x28, 0x60, 0x2B], [0x27, 0x27, 0xC3], [0xA9, 0x27], [0x29], [0x0A]] =
      Bytes.ofString " (`+''é')\n" ∧
    (feedAll (Script.machine { answer := Script.echo }) {} []
      [[0x20], [], [0x28, 0x60, 0x2B], [0x27, 0x27, 0xC3], [0xA9, 0x27], [0x29], [0x0A]]).evaluated =
        [.call (.lambda "+") [.str "é"]] := by
  have hr : Expr.read Script.compile " (`+''é')\n" = .ok (.call (.lambda "+") [.str "é"]) :=
    (Expr.read_eq_readChars _ _).trans rfl
  exact ⟨hr, rfl, (feedAll_eq_feed _ _ hr rfl).left⟩

end TapeShell.Session
