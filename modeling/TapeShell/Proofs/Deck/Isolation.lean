import TapeShell.Deck
import TapeShell.Proofs.Eval.Congruence
import TapeShell.Proofs.Session.Conservation

namespace TapeShell

open Tape

variable {σ τ α β : Type}

def Effect.texts (effects : List Effect) : List Bytes :=
  effects.filterMap fun
    | .write text => some text
    | .log _ => none

theorem Effect.texts_append (es fs : List Effect) : texts (es ++ fs) = texts es ++ texts fs :=
  List.filterMap_append ..

namespace Action

def Agrees (x : Action σ α) (y : Action τ α) : Prop :=
  ∀ s t, (x s).value = (y t).value ∧ Effect.texts (x s).effects = Effect.texts (y t).effects

theorem Agrees.pure (a : α) : Agrees (Pure.pure a : Action σ α) (Pure.pure a : Action τ α) :=
  fun _ _ => ⟨rfl, rfl⟩

theorem Agrees.emit (effects : List Effect) :
    Agrees (Action.emit effects : Action σ Unit) (Action.emit effects : Action τ Unit) :=
  fun _ _ => ⟨rfl, rfl⟩

theorem Agrees.bind {x : Action σ α} {y : Action τ α} {f : α → Action σ β} {g : α → Action τ β}
    (h : x.Agrees y) (hf : ∀ a, (f a).Agrees (g a)) : (x >>= f).Agrees (y >>= g) := by
  intro s t
  have ⟨hv, he⟩ := h s t
  have ⟨hw, hg⟩ := hf (y t).value (x s).state (y t).state
  simp only [Bind.bind, Effect.texts_append, he, hv]
  exact ⟨hw, congrArg (_ ++ ·) hg⟩

end Action

open TapeShell.Action

theorem Wire.call_agrees {C : Type} [Code C] (runner : Bytes → Exchange) (args : List (Expr C)) :
    Agrees (call runner args : Action σ _) (call runner args : Action τ _) := by
  cases h : encodeArgs args
  case error =>
    simp only [call, callIn, h]
    exact .pure _
  case ok input =>
    cases hf : (runner input).fault <;> simp only [call, callIn, h, hf]
    case none => exact .bind (.emit _) fun _ => .pure _
    case some => exact .bind (.emit _) fun _ => .pure _

namespace Session

def shown (effects : List (Origin × Effect)) : List Bytes :=
  Effect.texts (effects.map Prod.snd)

theorem shown_append (es fs : List (Origin × Effect)) : shown (es ++ fs) = shown es ++ shown fs := by
  rw [shown, List.map_append, Effect.texts_append, shown, shown]

theorem shown_machine (effects : List Effect) :
    shown (effects.map (.machine, ·)) = Effect.texts effects := by
  rw [shown, List.map_map]
  exact congrArg Effect.texts (List.map_id effects)

theorem feed_agrees {C : Type} [Code C] {m : Machine C σ} {m' : Machine C τ}
    (hc : m.compile = m'.compile) {s : Session} {line : Bytes} {e : Expr C}
    (h : Expr.read m.compile (s.buffer ++ line) = .ok e) (ha : (e.eval m).Agrees (e.eval m'))
    (state : σ) (state' : τ) :
    shown (s.feed m state line).effects = shown (s.feed m' state' line).effects ∧
    (s.feed m state line).quit = (s.feed m' state' line).quit ∧
    (s.feed m state line).session = (s.feed m' state' line).session := by
  have ⟨hv, ht⟩ := ha state state'
  rw [feed_of_ok h, feed_of_ok (hc ▸ h)]
  simp only [shown_append, shown_machine, hv, ht, and_self]

theorem feedAll_of_prompting {C : Type} [Code C] {m : Machine C σ}
    (hm : ∀ src f, m.compile src = .error f → f.holdsIncomplete = false ∧ f.holdsEmpty = false)
    {state : σ} {lines : List Bytes} (h : (feedAll m {} state lines).session.phase = .prompting) :
    (feedAll m {} state lines).session = {} := by
  have hw := (feedAll_conserves hm .prompting state lines).waits
  generalize (feedAll m {} state lines).session = s at h hw
  cases hw
  case prompting => rfl
  case continuing => cases h

end Session

namespace Deck

open Calendar

def IsDecimal (bs : Bytes) : Prop :=
  bs ≠ [] ∧ bs.all Bytes.isDigit

instance (bs : Bytes) : Decidable (IsDecimal bs) :=
  inferInstanceAs (Decidable (_ ∧ _))

-- The names under which the journal is shown.
def Config.Introspects (c : Config) (name : Bytes) : Prop :=
  name = Bytes.ofString "log" ∨
  name ∉ c.macros.map Prod.fst ∧
    (IsDecimal name ∨ name.head? = some '#'.toUInt8 ∧ IsDecimal name.tail)

instance (c : Config) (name : Bytes) : Decidable (c.Introspects name) :=
  inferInstanceAs (Decidable (_ ∨ _ ∧ (_ ∨ _ ∧ _)))

theorem index?_of_not_isDecimal {name : Bytes} (h : ¬IsDecimal name) : index? name = none := by
  have hn : name.toNat? = none := if_neg h
  rw [index?, hn]
  rfl

theorem after?_bind_index?_of_not_isDecimal {name : Bytes}
    (h : ¬(name.head? = some '#'.toUInt8 ∧ IsDecimal name.tail)) :
    (Bytes.after? "#" name).bind index? = none := by
  cases ha : Bytes.after? "#" name
  case none => rfl
  case some digits =>
    have hd : name = '#'.toUInt8 :: digits := by
      unfold Bytes.after? at ha
      split at ha
      case isTrue hp =>
        have ⟨rest, hr⟩ := List.isPrefixOf_iff_prefix.mp hp
        rw [← hr, List.drop_left] at ha
        cases ha
        exact hr.symm
      case isFalse => cases ha
    rw [hd] at h
    exact index?_of_not_isDecimal fun hi => h ⟨rfl, hi⟩

section Requests

variable {c : Config} {clock clock' : Nat → Instant} {name : Bytes}

theorem meaning_eq_of_not_introspects (h : ¬c.Introspects name) (d d' : Deck) :
    meaning { c with clock } d name = meaning { c with clock := clock' } d' name := by
  have ⟨hl, hn⟩ := not_or.mp h
  cases hm : c.macros.lookup name
  case some p => simp only [meaning, hl, hm, if_false, Config.help]
  case none =>
    have hc : name ∉ c.macros.map Prod.fst := by
      simp only [List.lookup_eq_none_iff, bne_iff_ne] at hm
      simpa using fun p hp => hm (name, p) hp rfl
    have ⟨hi, ha⟩ := not_or.mp fun hd => hn ⟨hc, hd⟩
    simp only [meaning, hl, hm, if_false, Config.help, index?_of_not_isDecimal hi,
      after?_bind_index?_of_not_isDecimal ha]

theorem expand_agrees (h : ¬c.Introspects name) :
    (expand { c with clock } name).Agrees (expand { c with clock := clock' } name) := by
  intro d d'
  have hm : meaning { c with clock } d name = meaning { c with clock := clock' } d' name :=
    meaning_eq_of_not_introspects h d d'
  cases hd : meaning { c with clock := clock' } d' name <;> rw [hd] at hm <;>
    simp only [expand, expandIn, bind, Acts.get, Action.get, hm, hd]
  all_goals exact ⟨rfl, rfl⟩

theorem run_agrees (code : Program) (args : List (Expr Program)) :
    (run { c with clock } code args).Agrees (run { c with clock := clock' } code args) := by
  refine .bind (Wire.call_agrees _ args) fun result => ?_
  rcases result with f | v
  case error => exact .pure _
  case ok => exact .bind (fun _ _ => ⟨rfl, rfl⟩) fun _ => .pure _

end Requests

theorem not_holds_of_read (src : Bytes) (f : Fault) (h : Program.read src = .error f) :
    f.holdsIncomplete = false ∧ f.holdsEmpty = false := by
  unfold Program.read at h
  split at h <;> cases h
  exact ⟨rfl, rfl⟩

theorem feed_independent_of_past (c : Config) (clock clock' : Nat → Instant) (lines lines' : List Bytes)
    (text : Bytes) (e : Expr Program) :
    let m := machine { c with clock }
    let m' := machine { c with clock := clock' }
    let fed := Session.feedAll m {} {} lines
    let fed' := Session.feedAll m' {} {} lines'
    fed.session.phase = .prompting → fed'.session.phase = .prompting →
    Expr.read Program.read text = .ok e → (∀ name ∈ e.names, ¬c.Introspects name) →
    let turn := fed.session.feed m fed.machine text
    let turn' := fed'.session.feed m' fed'.machine text
    Session.shown turn.effects = Session.shown turn'.effects ∧ turn.quit = turn'.quit ∧
    turn.session = turn'.session := by
  intro m m' fed fed' hp hp' he hn turn turn'
  have hc : m.compile = m'.compile := rfl
  have hs : fed.session = {} := Session.feedAll_of_prompting not_holds_of_read hp
  have hs' : fed'.session = {} := Session.feedAll_of_prompting not_holds_of_read hp'
  have ha : (e.eval m).Agrees (e.eval m') :=
    Expr.eval_congr (Action.isCongruence Agrees.pure Agrees.bind) run_agrees e
      fun name hm => expand_agrees (hn name hm)
  simp only [turn, turn', hs, hs']
  exact Session.feed_agrees (s := {}) hc he ha fed.machine fed'.machine

-- A number that is configured is no entry of the journal, and `log` in an argument is only sent.
theorem feed_independent_of_past_configured_number :
    let c : Config := { macros := [("0", .printing "1:z")], clock := fun _ => { unix := 0 } }
    let m := machine c
    let m' := machine { c with clock := fun n => { unix := n } }
    let lines : List Bytes := ["(@A~ 'b')", "@1~", "(@0~", ")"]
    let text : Bytes := "?(@0~)(@greeting~ @log~)@help~"
    let fed := Session.feedAll m' {} {} lines
    fed.session.phase = .prompting ∧ fed.machine.journal.executions.length = 2 ∧
    Session.shown (Session.feed m {} {} text).effects =
      Session.shown (fed.session.feed m' fed.machine text).effects := by
  have he : Expr.read Program.read "?(@0~)(@greeting~ @log~)@help~" =
      .ok (.cond (.call (.macroName "0") []) (.call (.macroName "greeting") [.macroName "log"])
        (.macroName "help")) :=
    (Expr.read_eq_readChars _ _).trans rfl
  have h := feed_independent_of_past { macros := [("0", .printing "1:z")], clock := fun _ => { unix := 0 } }
    (fun _ => { unix := 0 }) (fun n => { unix := n }) [] ["(@A~ 'b')", "@1~", "(@0~", ")"] _ _ rfl
    (by decide +kernel) he (by decide +kernel)
  exact ⟨by decide +kernel, by decide +kernel, h.left⟩

end Deck
end TapeShell
