import TapeShell.Deck
import TapeShell.Proofs.Eval.Recorded
import TapeShell.Proofs.Session.Pieces
import TapeShell.Session.Run

namespace TapeShell

open Machine

namespace Bytes

theorem cutLine?_of_not_mem {bs : Bytes} (h : '\n'.toUInt8 ∉ bs) : cutLine? bs = none := by
  induction bs
  case nil => rfl
  case cons b bs hi =>
    have ⟨hb, hs⟩ := List.ne_and_not_mem_of_not_mem_cons h
    rw [cutLine?, if_neg hb.symm, hi hs]
    rfl

theorem cutLine?_append {bs : Bytes} (h : '\n'.toUInt8 ∉ bs) (rest : Bytes) :
    cutLine? (bs ++ '\n'.toUInt8 :: rest) = some (bs ++ ['\n'.toUInt8], rest) := by
  induction bs
  case nil => rfl
  case cons b bs hi =>
    have ⟨hb, hs⟩ := List.ne_and_not_mem_of_not_mem_cons h
    rw [List.cons_append, cutLine?, if_neg hb.symm, hi hs]
    rfl

theorem dropTail_append (bs tail : Bytes) : dropTail tail (bs ++ tail) = bs := by
  simp [dropTail]

theorem dropTail_of_getLast? {bs : Bytes} {b : UInt8} (h : bs.getLast? ≠ some b) :
    dropTail [b] bs = bs := by
  refine if_neg fun hs => h ?_
  have ⟨init, hi⟩ := List.isSuffixOf_iff_suffix.mp hs
  rw [← hi, List.getLast?_concat]

def dropReturn (bs : Bytes) : Bytes :=
  if bs.getLast? = some '\r'.toUInt8 then bs.dropLast else bs

theorem dropReturn_eq_self_iff {bs : Bytes} :
    dropReturn bs = bs ↔ bs.getLast? ≠ some '\r'.toUInt8 := by
  unfold dropReturn
  split
  case isFalse h => exact iff_of_true rfl h
  case isTrue h =>
    refine iff_of_false ?_ (· h)
    intro he
    have hlt := congrArg List.length he
    have hpos := List.length_pos_of_mem (List.mem_of_getLast? h)
    rw [List.length_dropLast] at hlt
    omega

theorem dropReturn_append (bs : Bytes) : dropReturn (bs ++ ['\r'.toUInt8]) = bs := by
  simp [dropReturn]

theorem dropTail_return (bs : Bytes) : dropTail "\r" bs = dropReturn bs := by
  by_cases h : bs.getLast? = some '\r'.toUInt8
  case pos =>
    obtain ⟨init, rfl⟩ := List.getLast?_eq_some_iff.mp h
    rw [dropReturn_append]
    exact dropTail_append init "\r"
  case neg =>
    rw [dropReturn_eq_self_iff.mpr h]
    exact dropTail_of_getLast? h

theorem dropLineEnd_append_feed (bs : Bytes) : dropLineEnd (bs ++ ['\n'.toUInt8]) = dropReturn bs := by
  have hd := dropTail_append bs "\n"
  exact (congrArg (dropTail "\r") hd).trans (dropTail_return bs)

-- The carriage return is taken off also where no line feed follows it.
theorem dropLineEnd_of_not_mem {bs : Bytes} (h : '\n'.toUInt8 ∉ bs) : dropLineEnd bs = dropReturn bs := by
  have hd : dropTail "\n" bs = bs := dropTail_of_getLast? fun hl => h (List.mem_of_getLast? hl)
  exact (congrArg (dropTail "\r") hd).trans (dropTail_return bs)

end Bytes

structure IsLine (line : Bytes) : Prop where
  noFeed   : '\n'.toUInt8 ∉ line
  noReturn : line.getLast? ≠ some '\r'.toUInt8

instance (line : Bytes) : Decidable (IsLine line) :=
  decidable_of_iff ('\n'.toUInt8 ∉ line ∧ line.getLast? ≠ some '\r'.toUInt8)
    ⟨fun h => ⟨h.left, h.right⟩, fun h => ⟨h.noFeed, h.noReturn⟩⟩

-- `Spells lines text`: the bytes `text` hold `lines`, each with one of the two line ends after it. The last
-- line may lack its end, unless it is empty.
inductive Spells : List Bytes → Bytes → Prop
  | nil  : Spells [] []
  | last : line ≠ [] → Spells [line] line
  | cons : lineEnd ∈ [Bytes.ofString "\n", "\r\n"] → Spells lines text →
    Spells (line :: lines) (line ++ lineEnd ++ text)

section Ends

open Bytes

variable {line : Bytes}

theorem IsLine.dropReturn_self (h : IsLine line) : dropReturn line = line :=
  dropReturn_eq_self_iff.mpr h.noReturn

theorem next_of_not_mem {bs : Bytes} (h : '\n'.toUInt8 ∉ bs) (rest : Bytes) (failure : Option Fault) :
    PlainLines.next ⟨bs ++ '\n'.toUInt8 :: rest, failure⟩ = (.ok (dropReturn bs), ⟨rest, failure⟩) := by
  simp only [PlainLines.next, cutLine?_append h rest, dropLineEnd_append_feed]
  rfl

theorem next_last_of_not_mem {bs : Bytes} (h : '\n'.toUInt8 ∉ bs) (hn : bs ≠ []) :
    PlainLines.next ⟨bs, none⟩ = (.ok (dropReturn bs), ⟨[], none⟩) := by
  simp only [PlainLines.next, cutLine?_of_not_mem h, hn, if_false, dropLineEnd_of_not_mem h]
  rfl

theorem IsLine.next_append {lineEnd : Bytes} (h : IsLine line)
    (he : lineEnd ∈ [ofString "\n", "\r\n"]) (text : Bytes) :
    PlainLines.next ⟨line ++ lineEnd ++ text, none⟩ = (.ok line, ⟨text, none⟩) := by
  simp only [List.mem_cons, List.not_mem_nil, or_false] at he
  rw [List.append_assoc]
  rcases he with rfl | rfl
  case inl =>
    have hn := next_of_not_mem h.noFeed text none
    rw [h.dropReturn_self] at hn
    exact hn
  case inr =>
    have hm : '\n'.toUInt8 ∉ line ++ ['\r'.toUInt8] := by
      simp only [List.mem_append, h.noFeed, false_or]
      decide
    have hn := next_of_not_mem hm text none
    rw [dropReturn_append, List.append_assoc] at hn
    exact hn

theorem IsLine.next_last (h : IsLine line) (hn : line ≠ []) :
    PlainLines.next ⟨line, none⟩ = (.ok line, ⟨[], none⟩) := by
  rw [next_last_of_not_mem h.noFeed hn, h.dropReturn_self]

end Ends

def firstOf : List Bytes → Except Fault Bytes
  | []        => .error .endOfInput
  | line :: _ => .ok line

theorem Spells.next_eq {lines : List Bytes} {text : Bytes} (h : Spells lines text)
    (hl : ∀ line ∈ lines, IsLine line) : ∃ rest, Spells lines.tail rest ∧
      PlainLines.next ⟨text, none⟩ = (firstOf lines, ⟨rest, none⟩) := by
  cases h
  case nil => exact ⟨[], .nil, rfl⟩
  case last hn => exact ⟨[], .nil, (hl _ (List.mem_singleton_self _)).next_last hn⟩
  case cons he ht => exact ⟨_, ht, (hl _ List.mem_cons_self).next_append he _⟩

structure PlainLines.Holds (lines : List Bytes) (s : PlainLines) : Prop where
  text     : Spells lines s.input.unread
  lines    : ∀ line ∈ lines, IsLine line
  failure  : s.input.failure = none
  writable : s.writable = none

namespace PlainLines

variable {lines : List Bytes} {s : PlainLines}

theorem ask_of_writable (h : s.writable = none) (prompt : Bytes) :
    LineSource.ask prompt s =
      ⟨(next s.input).1, { s with input := (next s.input).2 }, if s.quiet then [] else prompt⟩ := by
  cases s
  cases h
  simp [LineSource.ask, ask]

theorem Holds.ask (h : s.Holds lines) (prompt : Bytes) :
    (LineSource.ask prompt s).answer = firstOf lines ∧
    (LineSource.ask prompt s).source.Holds lines.tail := by
  have hi : s.input = ⟨s.input.unread, none⟩ := by rw [← h.failure]
  have ⟨rest, ht, hn⟩ := h.text.next_eq h.lines
  rw [ask_of_writable h.writable, hi, hn]
  exact ⟨rfl, ht, fun line hl => h.lines line (List.mem_of_mem_tail hl), rfl, h.writable⟩

end PlainLines

namespace ScriptedLines

theorem ask_eq (prompt : Bytes) (s : ScriptedLines) :
    LineSource.ask prompt s = ⟨firstOf s.lines, ⟨s.lines.tail, s.prompts ++ [prompt]⟩, []⟩ := by
  rcases s with ⟨_ | _, _⟩ <;> rfl

end ScriptedLines

structure Prompted (ι : Type) where
  source : ι
  prompts : List Bytes := []

instance {ι : Type} [LineSource ι] : LineSource (Prompted ι) where
  ask prompt s :=
    let asked := LineSource.ask prompt s.source
    ⟨asked.answer, ⟨asked.source, s.prompts ++ [prompt]⟩, asked.written⟩
  remaining s := LineSource.remaining s.source
  remaining_lt h := LineSource.remaining_lt h

namespace LineSource

variable {ι κ : Type} [LineSource ι] [LineSource κ]

-- Sources that are related give the same answer to a prompt, and stay related.
def Simulates (R : ι → κ → Prop) : Prop :=
  ∀ a b, R a b → ∀ prompt, (ask prompt a).answer = (ask prompt b).answer ∧
    R (ask prompt a).source (ask prompt b).source

def Shows (P : ι → Prop) : Prop :=
  ∀ a, P a → ∀ prompt, (ask prompt a).written = prompt ∧ P (ask prompt a).source

theorem simulates_holds : Simulates fun (a : PlainLines) (b : ScriptedLines) => a.Holds b.lines := by
  intro a b h prompt
  rw [ScriptedLines.ask_eq]
  exact h.ask prompt

theorem simulates_prompted_holds :
    Simulates fun (a : Prompted PlainLines) (b : ScriptedLines) =>
      a.source.Holds b.lines ∧ a.prompts = b.prompts := by
  intro a b ⟨h, hp⟩ prompt
  have ⟨ha, hs⟩ := h.ask prompt
  rw [ScriptedLines.ask_eq]
  exact ⟨ha, hs, congrArg (· ++ [prompt]) hp⟩

theorem shows_of_not_quiet : Shows fun a : PlainLines => a.quiet = false ∧ a.writable = none := by
  intro a ⟨hq, hw⟩ prompt
  rw [PlainLines.ask_of_writable hw]
  exact ⟨by simp [hq], hq, hw⟩

end LineSource

namespace Session

open LineSource

variable {C σ ι κ : Type}

def promptsWritten (effects : List (Origin × Effect)) : List Bytes :=
  effects.filterMap fun
    | (.lines, .write text) => some text
    | _ => none

theorem promptsWritten_append (es fs : List (Origin × Effect)) :
    promptsWritten (es ++ fs) = promptsWritten es ++ promptsWritten fs :=
  List.filterMap_append ..

theorem promptsWritten_prompt (text : Bytes) (es : List (Origin × Effect)) :
    promptsWritten ((.lines, .write text) :: es) = text :: promptsWritten es :=
  rfl

def unprompted (effects : List (Origin × Effect)) : List (Origin × Effect) :=
  effects.filter (·.1 ≠ .lines)

theorem unprompted_append (es fs : List (Origin × Effect)) :
    unprompted (es ++ fs) = unprompted es ++ unprompted fs :=
  List.filter_append ..

structure Ended.Agrees (R : ι → κ → Prop) (a : Ended σ ι) (b : Ended σ κ) : Prop where
  fault   : a.fault = b.fault
  session : a.session = b.session
  machine : a.machine = b.machine
  source  : R a.source b.source
  effects : unprompted a.effects = unprompted b.effects
  history : a.history = b.history

variable {R : ι → κ → Prop}

theorem Ended.Agrees.after {a : Ended σ ι} {b : Ended σ κ} (h : a.Agrees R b)
    {es fs : List (Origin × Effect)} (he : unprompted es = unprompted fs) (history : List Bytes) :
    (a.after es history).Agrees R (b.after fs history) where
  fault   := h.fault
  session := h.session
  machine := h.machine
  source  := h.source
  effects := by rw [Ended.after, Ended.after, unprompted_append, unprompted_append, he, h.effects]
  history := congrArg (history ++ ·) h.history

section Effects

theorem changePhase_ne_lines (source target : Phase) (message : Bytes) :
    ∀ effect ∈ changePhase source target message, effect.1 ≠ .lines := by
  unfold changePhase
  split <;> simp

variable [Code C]

theorem conclude_ne_lines (x : Except Stop (Expr C)) : ∀ effect ∈ (conclude x).2, effect.1 ≠ .lines := by
  unfold conclude
  repeat' split
  all_goals simp [answer]

theorem feed_ne_lines (m : Machine C σ) (s : Session) (state : σ) (line : Bytes) :
    ∀ effect ∈ (s.feed m state line).effects, effect.1 ≠ .lines := by
  have hc := changePhase_ne_lines s.phase .prompting "input complete"
  cases h : Expr.read m.compile (s.buffer ++ line)
  case ok e =>
    rw [feed_of_ok h]
    refine List.forall_mem_append.mpr ⟨List.forall_mem_append.mpr ⟨hc, by simp⟩, conclude_ne_lines _⟩
  case error f =>
    rw [feed_eq, h]
    simp only
    repeat' split
    · exact changePhase_ne_lines _ _ _
    · exact hc
    · exact List.forall_mem_append.mpr ⟨hc, by simp [answer]⟩

theorem promptsWritten_feed (m : Machine C σ) (s : Session) (state : σ) (line : Bytes) :
    promptsWritten (s.feed m state line).effects = [] := by
  refine List.filterMap_eq_nil_iff.mpr fun effect he => ?_
  have hne := feed_ne_lines m s state line effect he
  split
  · exact absurd rfl hne
  · rfl

end Effects

section Run

variable [Code C] [LineSource ι] [LineSource κ] {m : Machine C σ} {prompts : Prompts}

section Step

variable {s : Session} {state : σ} {a : ι}

theorem run_of_error {f : Fault} (h : (ask (prompts.select s.phase) a).answer = .error f) :
    run m prompts s state a =
      ⟨some f, s, state, (ask (prompts.select s.phase) a).source,
        [(.lines, .write (ask (prompts.select s.phase) a).written)], []⟩ := by
  rw [run]
  split
  case h_1 ha =>
    rw [advance_of_error h] at ha
    cases ha
    rfl
  case h_2 ha =>
    rw [advance_of_error h] at ha
    cases ha

def resume (m : Machine C σ) (prompts : Prompts) (turn : Turn σ) (a : ι) : Ended σ ι :=
  if turn.quit then ⟨none, turn.session, turn.machine, a, [], []⟩
  else run m prompts turn.session turn.machine a

theorem run_of_ok {line : Bytes} (h : (ask (prompts.select s.phase) a).answer = .ok line) :
    run m prompts s state a =
      (resume m prompts (s.feed m state line) (ask (prompts.select s.phase) a).source).after
        ((.lines, .write (ask (prompts.select s.phase) a).written) :: (s.feed m state line).effects)
        (s.feed m state line).history.toList := by
  rw [run]
  split
  case h_1 ha =>
    rw [advance_of_ok h] at ha
    simp only at ha
    split at ha <;> cases ha
    case isTrue hq => simp [resume, hq, Ended.after]
  case h_2 ha =>
    rw [advance_of_ok h] at ha
    simp only at ha
    split at ha <;> cases ha
    case isFalse hq => simp [resume, hq]

end Step

theorem run_agrees (hR : Simulates R) (s : Session) (state : σ) {a : ι} {b : κ} (h : R a b) :
    (run m prompts s state a).Agrees R (run m prompts s state b) := by
  have ⟨hab, hs⟩ := hR a b h (prompts.select s.phase)
  cases ha : (ask (prompts.select s.phase) a).answer <;> have hb := hab.symm.trans ha
  case error f =>
    rw [run_of_error ha, run_of_error hb]
    exact ⟨rfl, rfl, rfl, hs, rfl, rfl⟩
  case ok line =>
    rw [run_of_ok ha, run_of_ok hb]
    refine Ended.Agrees.after ?_ ?_ _
    case refine_1 =>
      unfold resume
      split
      case isTrue => exact ⟨rfl, rfl, rfl, hs, rfl, rfl⟩
      case isFalse => exact run_agrees hR _ _ hs
    case refine_2 => rfl
termination_by remaining a
decreasing_by exact remaining_lt ha

theorem prompts_run {P : ι → Prop} (hP : Shows P) (s : Session) (state : σ) {a : ι} (h : P a)
    (asked : List Bytes) :
    (run m prompts s state (Prompted.mk a asked)).source.prompts =
      asked ++ promptsWritten (run m prompts s state a).effects := by
  have ⟨hw, hs⟩ := hP a h (prompts.select s.phase)
  cases ha : (ask (prompts.select s.phase) a).answer
  case error f =>
    rw [run_of_error ha, run_of_error (a := Prompted.mk a asked) ha, hw]
    rfl
  case ok line =>
    rw [run_of_ok ha, run_of_ok (a := Prompted.mk a asked) ha, hw]
    simp only [Ended.after, promptsWritten_append, promptsWritten_prompt, promptsWritten_feed,
      List.nil_append, List.cons_append]
    unfold resume
    split
    case isTrue => rfl
    case isFalse =>
      refine (prompts_run hP _ _ hs _).trans ?_
      rw [List.append_assoc]
      rfl
termination_by remaining a
decreasing_by exact remaining_lt ha

theorem run_scripted_fault (s : Session) (state : σ) (lines asked : List Bytes) :
    (run m prompts s state (ScriptedLines.mk lines asked)).fault =
      if (s.feedAll m state lines).quit then none else some .endOfInput := by
  induction lines generalizing s state asked
  case nil =>
    rw [run_of_error (f := .endOfInput) rfl]
    rfl
  case cons line lines hi =>
    have ha : (ask (prompts.select s.phase) (ScriptedLines.mk (line :: lines) asked)).answer = .ok line :=
      rfl
    rw [run_of_ok ha, feedAll]
    simp only [Ended.after, Fed.after, resume]
    split
    case isTrue => rfl
    case isFalse => exact hi ..

theorem run_plain_eq_run_scripted (m : Machine C σ) (prompts : Prompts) (s : Session) (state : σ)
    (quiet : Bool) {lines : List Bytes} {text : Bytes} (hl : ∀ line ∈ lines, IsLine line)
    (ht : Spells lines text) :
    let input : PlainLines := { input := ⟨text, none⟩, quiet }
    let plain := run m prompts s state input
    let scripted := run m prompts s state (ScriptedLines.mk lines [])
    (run m prompts s state (Prompted.mk input [])).source.prompts = scripted.source.prompts ∧
    (quiet = false → promptsWritten plain.effects = scripted.source.prompts) ∧
    unprompted plain.effects = unprompted scripted.effects ∧
    plain.history = scripted.history ∧
    (run m.recorded prompts s (state, []) input).machine =
      (run m.recorded prompts s (state, []) (ScriptedLines.mk lines [])).machine ∧
    plain.machine = scripted.machine ∧ plain.session = scripted.session ∧
    plain.fault = scripted.fault ∧
    plain.fault = if (s.feedAll m state lines).quit then none else some .endOfInput := by
  intro input plain scripted
  have hi : input.Holds lines := ⟨ht, hl, rfl, rfl⟩
  have h : plain.Agrees _ scripted := run_agrees simulates_holds s state hi
  have hp : (run m prompts s state (Prompted.mk input [])).Agrees _ scripted :=
    run_agrees simulates_prompted_holds s state ⟨hi, rfl⟩
  have hr : (run m.recorded prompts s (state, []) input).Agrees _
      (run m.recorded prompts s (state, []) (ScriptedLines.mk lines [])) :=
    run_agrees simulates_holds s (state, []) hi
  refine ⟨hp.source.right, ?written, h.effects, h.history, hr.machine, h.machine, h.session, h.fault, ?fault⟩
  case written =>
    intro hq
    rw [← hp.source.right]
    exact (prompts_run shows_of_not_quiet s state ⟨hq, rfl⟩ []).symm
  case fault => exact h.fault.trans (run_scripted_fault s state lines [])

-- An expression in three lines, one of them empty, then a line that quits, and a last one without an end.
theorem run_plain_eq_run_scripted_mixed_ends :
    let m := Deck.machine { clock := fun n => { unix := n } }
    let lines : List Bytes := ["(@A~", "", " 'b\r')", "@quit~", "'late'"]
    let text : Bytes :=
      "(@A~" ++ "\r\n" ++ ("" ++ "\n" ++ (" 'b\r')" ++ "\n" ++ ("@quit~" ++ "\r\n" ++ "'late'")))
    let plain := run m {} {} {} ({ input := ⟨text, none⟩ } : PlainLines)
    let scripted := run m {} {} {} (ScriptedLines.mk lines [])
    (∀ line ∈ lines, IsLine line) ∧ Spells lines text ∧
    promptsWritten plain.effects = scripted.source.prompts ∧
    unprompted plain.effects = unprompted scripted.effects ∧ plain.fault = none := by
  have hl : ∀ line ∈ [Bytes.ofString "(@A~", "", " 'b\r')", "@quit~", "'late'"], IsLine line := by decide
  have ht : Spells ["(@A~", "", " 'b\r')", "@quit~", "'late'"]
      ("(@A~" ++ "\r\n" ++ ("" ++ "\n" ++ (" 'b\r')" ++ "\n" ++ ("@quit~" ++ "\r\n" ++ "'late'")))) :=
    .cons (by simp) <| .cons (by simp) <| .cons (by simp) <| .cons (by simp) <| .last (by decide)
  have ⟨_, hp, he, _, _, _, _, _, hf⟩ :=
    run_plain_eq_run_scripted (Deck.machine { clock := fun n => { unix := n } }) {} {} {} false hl ht
  exact ⟨hl, ht, hp rfl, he, hf.trans (by decide +kernel)⟩

end Run

end Session

end TapeShell
