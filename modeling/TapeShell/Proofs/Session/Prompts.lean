import TapeShell.Machine.Scripted
import TapeShell.Proofs.Deck.Isolation
import TapeShell.Proofs.Session.Sources

namespace TapeShell.Session

open LineSource

variable {C σ : Type}

def gather (compile : Bytes → Except Fault C) (since : List Bytes) (line : Bytes) : List Bytes :=
  match Expr.read compile (since ++ [line]).flatten with
  | .error .incomplete => since ++ [line]
  | _ => []

def sinceSettled (compile : Bytes → Except Fault C) (lines : List Bytes) : List Bytes :=
  lines.foldl (gather compile) []

-- What a session holds is what the lines since the last settled input spell.
structure Holds (compile : Bytes → Except Fault C) (since : List Bytes) (s : Session) : Prop where
  buffer : s.buffer = since.flatten
  waits  : Waits compile s

theorem Holds.phase_eq_continuing_iff {compile : Bytes → Except Fault C} {since : List Bytes} {s : Session}
    (h : Holds compile since s) :
    s.phase = .continuing ↔ Expr.read compile since.flatten = .error .incomplete := by
  rw [← h.buffer]
  rcases h.waits.phase_cases with ⟨hp, hb⟩ | ⟨hp, hr⟩
  · simp [hp, hb, Expr.read_nil]
  · simp [hp, hr]

theorem Holds.select_phase {compile : Bytes → Except Fault C} {since : List Bytes} {s : Session}
    (h : Holds compile since s) (prompts : Prompts) :
    (Expr.read compile since.flatten = .error .incomplete →
      prompts.select s.phase = prompts.continuation) ∧
    (Expr.read compile since.flatten ≠ .error .incomplete →
      prompts.select s.phase = prompts.primary) := by
  rw [Ne, ← h.phase_eq_continuing_iff]
  cases s.phase <;> simp [Prompts.select]

theorem gather_of_incomplete {compile : Bytes → Except Fault C} {since : List Bytes} {line : Bytes}
    (h : Expr.read compile (since ++ [line]).flatten = .error .incomplete) :
    gather compile since line = since ++ [line] := by
  rw [gather, h]

theorem gather_of_settled {compile : Bytes → Except Fault C} {since : List Bytes} {line : Bytes}
    (h : Expr.read compile (since ++ [line]).flatten ≠ .error .incomplete) :
    gather compile since line = [] := by
  unfold gather
  split
  case h_1 hr => exact absurd hr h
  case h_2 => rfl

variable [Code C] {m : Machine C σ}

section Feed

variable {s : Session} {state : σ} {line : Bytes} {since : List Bytes}
  (hm : ∀ src f, m.compile src = .error f → f.holdsIncomplete = false ∧ f.holdsEmpty = false)
include hm

theorem feed_session_of_settled (h : Expr.read m.compile (s.buffer ++ line) ≠ .error .incomplete) :
    (s.feed m state line).session = {} := by
  cases hr : Expr.read m.compile (s.buffer ++ line)
  case ok e => rw [feed_of_ok hr]
  case error f =>
    have hi : f ≠ .incomplete := fun hf => h (hf ▸ hr)
    by_cases he : f = .empty
    case pos => rw [feed_of_empty (he ▸ hr)]
    case neg =>
      have ⟨hi, he⟩ := refused_of_read hm hr he hi
      rw [feed_of_refused hr hi he]

theorem Holds.feed (h : Holds m.compile since s) (state : σ) (line : Bytes) :
    Holds m.compile (gather m.compile since line) (s.feed m state line).session := by
  have htext : (since ++ [line]).flatten = s.buffer ++ line := by
    rw [List.flatten_append, List.flatten_singleton, h.buffer]
  refine ⟨?_, (feed_conserves hm h.waits state line).waits⟩
  by_cases hr : Expr.read m.compile (s.buffer ++ line) = .error .incomplete
  case pos => rw [feed_of_incomplete hr, gather_of_incomplete (htext ▸ hr), htext]
  case neg =>
    rw [feed_session_of_settled hm hr, gather_of_settled (htext ▸ hr)]
    rfl

theorem Holds.rounds (h : Holds m.compile since s) (state : σ) (lines : List Bytes) {i : Nat} {r : Round σ}
    (hr : (s.rounds m state lines)[i]? = some r) :
    Holds m.compile ((lines.take i).foldl (gather m.compile) since) r.session := by
  induction lines generalizing s state since i
  case nil => cases hr
  case cons line lines hi =>
    rw [Session.rounds] at hr
    cases i
    case zero =>
      cases hr
      exact h
    case succ i =>
      rw [List.getElem?_cons_succ] at hr
      split at hr
      case isTrue => cases hr
      case isFalse => exact hi (h.feed hm state line) _ hr

theorem Holds.feedAll (h : Holds m.compile since s) (state : σ) (lines : List Bytes)
    (hq : (s.feedAll m state lines).quit = false) :
    Holds m.compile (lines.foldl (gather m.compile) since) (s.feedAll m state lines).session := by
  induction lines generalizing s state since
  case nil => exact h
  case cons line lines hi =>
    rw [Session.feedAll] at hq ⊢
    simp only [Fed.after] at hq ⊢
    split at hq
    case isTrue => cases hq
    case isFalse hquit =>
      rw [if_neg hquit]
      exact hi (h.feed hm state line) _ hq

end Feed

section Rounds

theorem rounds_ne_nil_of_quit {s : Session} {state : σ} {lines : List Bytes}
    (h : (s.feedAll m state lines).quit) : s.rounds m state lines ≠ [] := by
  cases lines
  case nil => cases h
  case cons => exact List.cons_ne_nil _ _

theorem feed_quit_iff_of_rounds {s : Session} {state : σ} {lines : List Bytes} {i : Nat} {r : Round σ}
    (hr : (s.rounds m state lines)[i]? = some r) :
    (r.session.feed m r.machine r.line).quit ↔
      (s.feedAll m state lines).quit ∧ i + 1 = (s.rounds m state lines).length := by
  induction lines generalizing s state i
  case nil => cases hr
  case cons line lines hi =>
    simp only [Session.rounds, Session.feedAll, Fed.after] at hr ⊢
    cases hq : (s.feed m state line).quit <;> simp only [hq, Bool.false_eq_true, if_true, if_false] at hr ⊢
    case true =>
      cases i <;> cases hr
      simp [hq]
    case false =>
      cases i
      case zero =>
        cases hr
        refine iff_of_false (by simp [hq]) ?_
        rintro ⟨hfed, hlength⟩
        rw [List.length_cons, Nat.add_right_cancel_iff] at hlength
        exact rounds_ne_nil_of_quit hfed (List.length_eq_zero_iff.mp hlength.symm)
      case succ i => simpa using hi (List.getElem?_cons_succ ▸ hr)

end Rounds

-- A session on a script went as its lines do when they are fed one by one: `rs` are the rounds, and `asked` are
-- the prompts from before.
structure Ended.Feeds (prompts : Prompts) (asked lines : List Bytes) (fed : Fed C σ) (rs : List (Round σ))
    (ended : Ended σ ScriptedLines) : Prop where
  session : ended.session = fed.session
  machine : ended.machine = fed.machine
  history : ended.history = fed.history
  effects : unprompted ended.effects = fed.effects
  lines   : rs.map Round.line ++ ended.source.lines = lines
  unread  : fed.quit = false → ended.source.lines = []
  prompts : ended.source.prompts = asked ++ (rs.map (prompts.select ·.session.phase) ++
    if fed.quit then [] else [prompts.select fed.session.phase])

theorem unprompted_feed (m : Machine C σ) (s : Session) (state : σ) (line : Bytes) :
    unprompted (s.feed m state line).effects = (s.feed m state line).effects :=
  List.filter_eq_self.mpr fun effect he => decide_eq_true (feed_ne_lines m s state line effect he)

theorem unprompted_prompt (text : Bytes) (effects : List (Origin × Effect)) :
    unprompted ((.lines, .write text) :: effects) = unprompted effects :=
  rfl

theorem Ended.Feeds.after {prompts : Prompts} {asked lines : List Bytes} {fed : Fed C σ}
    {rs : List (Round σ)} {ended : Ended σ ScriptedLines} {s : Session}
    (h : ended.Feeds prompts (asked ++ [prompts.select s.phase]) lines fed rs) (state : σ)
    (line text : Bytes) (e : Option (Expr C)) :
    (ended.after ((.lines, .write text) :: (s.feed m state line).effects)
      (s.feed m state line).history.toList).Feeds prompts asked (line :: lines)
        (fed.after (s.feed m state line) e) (⟨s, state, line⟩ :: rs) where
  session := h.session
  machine := h.machine
  history := congrArg (_ ++ ·) h.history
  effects := by
    rw [Ended.after, List.cons_append, unprompted_prompt, unprompted_append, unprompted_feed, h.effects]
    rfl
  lines   := congrArg (line :: ·) h.lines
  unread  := h.unread
  prompts := by
    refine h.prompts.trans ?_
    rw [List.append_assoc]
    rfl

theorem run_feeds (m : Machine C σ) (prompts : Prompts) (s : Session) (state : σ) (lines asked : List Bytes) :
    (run m prompts s state (ScriptedLines.mk lines asked)).Feeds prompts asked lines
      (s.feedAll m state lines) (s.rounds m state lines) := by
  induction lines generalizing s state asked
  case nil =>
    rw [run_of_error (f := .endOfInput) rfl]
    exact ⟨rfl, rfl, rfl, rfl, rfl, fun _ => rfl, rfl⟩
  case cons line lines hi =>
    have ha : (ask (prompts.select s.phase) (ScriptedLines.mk (line :: lines) asked)).answer = .ok line := rfl
    rw [run_of_ok ha, feedAll, rounds]
    refine .after ?_ state line _ _
    cases hq : (s.feed m state line).quit <;> simp only [resume, hq, Bool.false_eq_true, if_true, if_false]
    case true => exact ⟨rfl, rfl, rfl, rfl, rfl, Bool.noConfusion, (List.append_nil _).symm⟩
    case false => exact hi ..

section Prompted

variable (hm : ∀ src f, m.compile src = .error f → f.holdsIncomplete = false ∧ f.holdsEmpty = false)
include hm

theorem exists_holds_of_prompt {prompts : Prompts} {state : σ} {lines : List Bytes} {i : Nat} {prompt : Bytes}
    (h : (run m prompts {} state (ScriptedLines.mk lines [])).source.prompts[i]? = some prompt) :
    ∃ s, Holds m.compile (sinceSettled m.compile (lines.take i)) s ∧ prompt = prompts.select s.phase := by
  have hfeeds := run_feeds m prompts {} state lines []
  have hstart : Holds m.compile [] {} := ⟨rfl, .prompting⟩
  rw [hfeeds.prompts, List.nil_append, List.getElem?_append] at h
  split at h
  case isTrue =>
    rw [List.getElem?_map] at h
    obtain ⟨r, hr, rfl⟩ := Option.map_eq_some_iff.mp h
    exact ⟨r.session, hstart.rounds hm state lines hr, rfl⟩
  case isFalse hi =>
    -- All lines have been fed: the session is asked once more.
    cases hq : (feedAll m {} state lines).quit <;>
      simp only [hq, Bool.false_eq_true, if_true, if_false, List.getElem?_nil, reduceCtorEq] at h
    have hall := hfeeds.lines
    rw [hfeeds.unread hq, List.append_nil] at hall
    have hlength : lines.length ≤ i := by
      rw [← hall, List.length_map]
      simpa using hi
    rw [List.take_of_length_le hlength]
    have hprompt := List.mem_of_getElem? h
    exact ⟨_, hstart.feedAll hm state lines hq, List.mem_singleton.mp hprompt⟩

end Prompted

theorem run_feeds_as_prompted {m : Machine C σ}
    (hm : ∀ src f, m.compile src = .error f → f.holdsIncomplete = false ∧ f.holdsEmpty = false)
    (prompts : Prompts) (state : σ) (lines : List Bytes) :
    let ended := run m prompts {} state (ScriptedLines.mk lines [])
    let fed := feedAll m {} state lines
    let rs := rounds m {} state lines
    (ended.session = fed.session ∧ ended.machine = fed.machine ∧ ended.history = fed.history ∧
      unprompted ended.effects = fed.effects) ∧
    rs.map Round.line ++ ended.source.lines = lines ∧
    (∀ i r, rs[i]? = some r →
      ((r.session.feed m r.machine r.line).quit ↔ ended.fault = none ∧ i + 1 = rs.length)) ∧
    (ended.fault = none ∧ rs ≠ [] ∨ ended.fault = some .endOfInput ∧ ended.source.lines = []) ∧
    ended.source.prompts.length = rs.length + ended.fault.isSome.toNat ∧
    ∀ i prompt, ended.source.prompts[i]? = some prompt →
      (Expr.read m.compile (sinceSettled m.compile (lines.take i)).flatten = .error .incomplete →
        prompt = prompts.continuation) ∧
      (Expr.read m.compile (sinceSettled m.compile (lines.take i)).flatten ≠ .error .incomplete →
        prompt = prompts.primary) := by
  intro ended fed rs
  have h : ended.Feeds prompts [] lines fed rs := run_feeds m prompts {} state lines []
  have hf : ended.fault = if fed.quit then none else some .endOfInput :=
    run_scripted_fault {} state lines []
  have hquit : ended.fault = none ↔ fed.quit := by
    rw [hf]
    cases fed.quit <;> simp
  refine ⟨⟨h.session, h.machine, h.history, h.effects⟩, h.lines, fun i r hr => ?quits, ?ends, ?count,
    fun i prompt hp => ?prompt⟩
  case quits => rw [hquit, feed_quit_iff_of_rounds hr]
  case ends =>
    by_cases hq : fed.quit
    case pos => exact .inl ⟨hquit.mpr hq, rounds_ne_nil_of_quit hq⟩
    case neg => exact .inr ⟨by rw [hf, if_neg hq], h.unread (Bool.eq_false_iff.mpr hq)⟩
  case count =>
    rw [h.prompts, hf]
    cases fed.quit <;> simp
  case prompt =>
    obtain ⟨s, hs, rfl⟩ := exists_holds_of_prompt hm hp
    exact hs.select_phase prompts

-- The machines that there are refuse code for reasons of their own. On one of them, a call in three lines of
-- which one is empty, code that is refused, a blank line, and a line that quits before the last.
theorem run_feeds_as_prompted_until_quit :
    let prompts : Prompts := { primary := "? ", continuation := "... " }
    let lines : List Bytes := ["(@A~", "", " 'b')", "`!'", " ", "@quit~", "'late'"]
    let ended := run (Deck.machine { clock := fun n => { unix := n } }) prompts {} {} (ScriptedLines.mk lines [])
    (∀ c src f, (Deck.machine c).compile src = .error f → f.holdsIncomplete = false ∧ f.holdsEmpty = false) ∧
    (∀ c src f, (Script.machine c).compile src = .error f → f.holdsIncomplete = false ∧ f.holdsEmpty = false) ∧
    ended.fault = none ∧ ended.source.lines = [Bytes.ofString "'late'"] ∧ ended.source.prompts.length = 6 ∧
    ended.source.prompts[2]? = some prompts.continuation ∧ ended.source.prompts[4]? = some prompts.primary := by
  intro prompts lines ended
  have hscript (c : Script) (src f) (h : c.machine.compile src = .error f) :
      f.holdsIncomplete = false ∧ f.holdsEmpty = false := by
    have hc : (if '!'.toUInt8 ∈ src then .error (.plain ("refusing to compile " ++ src.quote))
      else .ok src : Except Fault Bytes) = .error f := h
    split at hc <;> cases hc
    exact ⟨rfl, rfl⟩
  have ⟨_, hlines, _, hends, hcount, hprompts⟩ :=
    run_feeds_as_prompted (m := Deck.machine { clock := fun n => { unix := n } }) Deck.not_holds_of_read
      prompts {} lines
  have hfed : (rounds (Deck.machine { clock := fun n => { unix := n } }) {} {} lines).map Round.line =
    lines.take 6 := by decide +kernel
  rw [hfed] at hlines
  have hunread : ended.source.lines = [Bytes.ofString "'late'"] := List.append_cancel_left hlines
  have hfault : ended.fault = none := by
    rcases hends with ⟨hf, _⟩ | ⟨_, hnil⟩
    · exact hf
    · rw [hunread] at hnil
      cases hnil
  have hlength : ended.source.prompts.length = 6 := by
    have hrounds := congrArg List.length hfed
    rw [List.length_map] at hrounds
    rw [hcount, hrounds, hfault]
    rfl
  have hinside : (sinceSettled Tape.Program.read (lines.take 2)).flatten = "(@A~" := by decide +kernel
  have hafter : (sinceSettled Tape.Program.read (lines.take 4)).flatten = [] := by decide +kernel
  refine ⟨fun _ => Deck.not_holds_of_read, hscript, hfault, hunread, hlength, ?_, ?_⟩
  · have hp : ended.source.prompts[2]? = some _ := List.getElem?_eq_getElem (by omega)
    have hr : Expr.read Tape.Program.read "(@A~" = .error .incomplete := (Expr.read_eq_readChars _ _).trans rfl
    rw [hp, (hprompts 2 _ hp).left (hinside ▸ hr)]
  · have hp : ended.source.prompts[4]? = some _ := List.getElem?_eq_getElem (by omega)
    have hr : Expr.read Tape.Program.read [] ≠ .error .incomplete := by simp [Expr.read_nil]
    rw [hp, (hprompts 4 _ hp).right (hafter ▸ hr)]

end TapeShell.Session
