import TapeShell.Machine.Scripted
import TapeShell.Proofs.Eval.Requests

namespace TapeShell

variable {C σ : Type}

namespace Expr

inductive Node (C : Type) where
  | macroName (name : Bytes)
  | call (args : List (Expr C))

def nodes : Expr C → List (Node C)
  | .cond test yes no => test.nodes ++ (yes.nodes ++ no.nodes)
  | .call callee args => callee.nodes ++ [.call args]
  | .macroName name => [.macroName name]
  | _ => []

-- The nodes along one branch of each condition.
inductive Route : Expr C → List (Node C) → Prop
  | nil : Route .nil []
  | str : Route (.str text) []
  | lambda : Route (.lambda code) []
  | hole : Route .hole []
  | macroName : Route (.macroName name) [.macroName name]
  | yes : Route test first → Route yes second → Route (.cond test yes no) (first ++ second)
  | no : Route test first → Route no second → Route (.cond test yes no) (first ++ second)
  | call : Route callee route → Route (.call callee args) (route ++ [.call args])

theorem Route.sublist {e : Expr C} {route : List (Node C)} (h : e.Route route) :
    route.Sublist e.nodes := by
  induction h
  case yes ht hy => exact ht.append (hy.trans (List.sublist_append_left ..))
  case no ht hn => exact ht.append (hn.trans (List.sublist_append_right ..))
  case call hc => exact hc.append_right _
  all_goals exact List.Sublist.refl _

theorem exists_route : (e : Expr C) → ∃ route, e.Route route
  | .nil => ⟨_, .nil⟩
  | .str _ => ⟨_, .str⟩
  | .lambda _ => ⟨_, .lambda⟩
  | .hole => ⟨_, .hole⟩
  | .macroName _ => ⟨_, .macroName⟩
  | .cond test yes _ =>
    have ⟨_, ht⟩ := exists_route test
    have ⟨_, hy⟩ := exists_route yes
    ⟨_, .yes ht hy⟩
  | .call callee _ =>
    have ⟨_, hc⟩ := exists_route callee
    ⟨_, .call hc⟩

end Expr

namespace Machine

open TapeShell.Expr (Node ofExpansion ofRun)

inductive Event (C : Type) where
  | expanded (name : Bytes) (answer : Except Fault C)
  | ran (code : C) (args : List (Expr C)) (answer : Except Fault (Expr C))

def traced (m : Machine C σ) : Machine C (σ × List (Event C)) where
  compile := m.compile
  expand name := fun (s, events) =>
    let reply := m.expand name s
    ⟨reply.value, (reply.state, events ++ [.expanded name reply.value]), reply.effects⟩
  run code args := fun (s, events) =>
    let reply := m.run code args s
    ⟨reply.value, (reply.state, events ++ [.ran code args reply.value]), reply.effects⟩

namespace Event

def node : Event C → Node C
  | .expanded name _ => .macroName name
  | .ran _ args _    => .call args

def Succeeds : Event C → Prop
  | .expanded _ (.ok _)    => True
  | .expanded _ (.error f) => f.signal? = some .proceed
  | .ran _ _ (.ok _)       => True
  | .ran _ _ (.error _)    => False

def outcome : Event C → Except Stop (Expr C)
  | .expanded _ answer => ofExpansion answer
  | .ran _ _ answer    => ofRun answer

variable {event : Event C}

theorem succeeds_iff : event.Succeeds ↔ ∃ v, event.outcome = .ok v := by
  rcases event with ⟨name, f | code⟩ | ⟨code, args, f | v⟩
  case expanded.error =>
    simp only [Succeeds, outcome, ofExpansion]
    by_cases hp : f.signal? = some .proceed
    case pos => simp [hp]
    case neg =>
      simp only [hp, if_false, false_iff]
      split <;> simp
  case expanded.ok => simp [Succeeds, outcome, ofExpansion]
  case ran.error => simp [Succeeds, outcome, ofRun]
  case ran.ok => cases v <;> simp [Succeeds, outcome, ofRun]

theorem outcome_eq_quit_iff :
    event.outcome = .error .quit ↔ ∃ name f, event = .expanded name (.error f) ∧ f.holdsQuit := by
  cases event
  case expanded name answer => simp [outcome, Expr.ofExpansion_eq_quit_iff, and_assoc]
  case ran code args answer => simp [outcome, Expr.ofRun_eq_error_iff]

theorem outcome_ne_hole (event : Event C) : event.outcome ≠ .error .hole := by
  cases event
  case expanded name answer => exact Expr.ofExpansion_ne_hole
  case ran code args answer => simp [outcome, Expr.ofRun_eq_error_iff]

end Event
end Machine

namespace Expr

open Machine

@[ext]
structure Trace (C : Type) where
  events : List (Event C) := []
  callees : List (Expr C) := []

instance : Append (Trace C) where
  append t u := ⟨t.events ++ u.events, t.callees ++ u.callees⟩

namespace Trace

structure Succeeds (t : Trace C) : Prop where
  events : ∀ event ∈ t.events, event.Succeeds
  callees : ∀ v ∈ t.callees, ∃ code, v = .lambda code

variable {t u : Trace C}

@[simp]
theorem events_append : (t ++ u).events = t.events ++ u.events :=
  rfl

@[simp]
theorem callees_append : (t ++ u).callees = t.callees ++ u.callees :=
  rfl

theorem append_assoc (t u w : Trace C) : t ++ u ++ w = t ++ (u ++ w) :=
  Trace.ext (List.append_assoc ..) (List.append_assoc ..)

theorem Succeeds.append (ht : t.Succeeds) (hu : u.Succeeds) : (t ++ u).Succeeds where
  events := List.forall_mem_append.mpr ⟨ht.events, hu.events⟩
  callees := List.forall_mem_append.mpr ⟨ht.callees, hu.callees⟩

theorem Succeeds.getLast?_ne_quit (h : t.Succeeds) :
    ¬∃ name f, t.events.getLast? = some (.expanded name (.error f)) ∧ f.holdsQuit := by
  intro ⟨name, f, hl, hq⟩
  obtain ⟨v, hv⟩ := Event.succeeds_iff.mp (h.events _ (List.mem_of_getLast? hl))
  rw [Event.outcome_eq_quit_iff.mpr ⟨name, f, rfl, hq⟩] at hv
  cases hv

end Trace

variable [Code C] {m : Machine C σ}

def trace (m : Machine C σ) : Expr C → σ → Trace C
  | .macroName name, s => { events := [.expanded name (m.expand name s).value] }
  | .cond test yes no, s =>
    let reply := test.eval m s
    match reply.value with
    | .error _ => test.trace m s
    | .ok v => test.trace m s ++ if v.truthy then yes.trace m reply.state else no.trace m reply.state
  | .call callee args, s =>
    let reply := callee.eval m s
    match reply.value with
    | .error _ => callee.trace m s
    | .ok (.lambda code) =>
      callee.trace m s ++ ⟨[.ran code args (m.run code args reply.state).value], [.lambda code]⟩
    | .ok v => callee.trace m s ++ { callees := [v] }
  | _, _ => {}

section Equations

variable {s : σ} {test yes no callee v : Expr C} {args : List (Expr C)} {stop : Stop} {code : C}

theorem trace_cond_of_error (h : (test.eval m s).value = .error stop) :
    (cond test yes no).trace m s = test.trace m s := by
  simp only [trace, h]

theorem trace_cond_of_ok (h : (test.eval m s).value = .ok v) :
    (cond test yes no).trace m s =
      test.trace m s ++ (if v.truthy then yes else no).trace m (test.eval m s).state := by
  simp only [trace, h]
  split <;> rfl

theorem trace_call_of_error (h : (callee.eval m s).value = .error stop) :
    (call callee args).trace m s = callee.trace m s := by
  simp only [trace, h]

theorem trace_call_of_lambda (h : (callee.eval m s).value = .ok (.lambda code)) :
    (call callee args).trace m s = callee.trace m s ++
      ⟨[.ran code args (m.run code args (callee.eval m s).state).value], [.lambda code]⟩ := by
  simp only [trace, h]

theorem trace_call_of_ok (h : (callee.eval m s).value = .ok v) (hv : ∀ code, v ≠ .lambda code) :
    (call callee args).trace m s = callee.trace m s ++ { callees := [v] } := by
  cases v
  case lambda code => exact absurd rfl (hv code)
  all_goals simp only [trace, h]

end Equations

variable {e : Expr C} {s : σ}

theorem eval_traced (m : Machine C σ) (e : Expr C) (s : σ) (events : List (Event C)) :
    e.eval m.traced (s, events) =
      ⟨(e.eval m s).value, ((e.eval m s).state, events ++ (e.trace m s).events),
        (e.eval m s).effects⟩ := by
  induction course m e s generalizing events
  case macroName => rfl
  case test hv _ hi =>
    rw [trace_cond_of_error hv]
    simp only [eval, bind, hi, hv]
    rfl
  case branch hv _ _ ht hb =>
    rw [trace_cond_of_ok hv]
    simp only [eval, bind, ht, hv, Trace.events_append, ← List.append_assoc]
    split
    case isTrue hy =>
      simp only [hy, if_true] at hb
      rw [hb]
    case isFalse hn =>
      simp only [hn, Bool.false_eq_true, if_false] at hb
      rw [hb]
  case callee hv _ hi =>
    rw [trace_call_of_error hv]
    simp only [eval, bind, hi, hv]
    rfl
  case run hv _ hi =>
    rw [trace_call_of_lambda hv]
    simp only [eval, bind, hi, hv, Trace.events_append, ← List.append_assoc]
    rfl
  case notCallable v _ _ _ hv hl _ hi =>
    rw [trace_call_of_ok hv hl, Trace.events_append, List.append_nil]
    cases v
    case lambda code => exact absurd rfl (hl code)
    all_goals
      simp only [eval, bind, hi, hv]
      rfl
  all_goals
    simp only [trace, List.append_nil]
    rfl

-- An evaluation that has no value leaves its route early, and one that has a value goes to its end.
theorem exists_route_of_trace (m : Machine C σ) (e : Expr C) (s : σ) :
    ∃ route, e.Route route ∧ (e.trace m s).events.map Event.node <+: route ∧
      ∀ v, (e.eval m s).value = .ok v → (e.trace m s).events.map Event.node = route := by
  induction course m e s
  case nil => exact ⟨[], .nil, List.prefix_rfl, fun _ _ => rfl⟩
  case str => exact ⟨[], .str, List.prefix_rfl, fun _ _ => rfl⟩
  case lambda => exact ⟨[], .lambda, List.prefix_rfl, fun _ _ => rfl⟩
  case hole => exact ⟨[], .hole, List.prefix_rfl, fun _ _ => rfl⟩
  case macroName => exact ⟨_, .macroName, List.prefix_rfl, fun _ _ => rfl⟩
  case test yes _ _ hv _ hi =>
    obtain ⟨route, hr, hp, -⟩ := hi
    obtain ⟨rest, hy⟩ := exists_route yes
    rw [trace_cond_of_error hv, eval_cond_of_error hv]
    exact ⟨route ++ rest, .yes hr hy, hp.trans (List.prefix_append ..), nofun⟩
  case branch hv _ _ ht hb =>
    obtain ⟨route, hr, -, he⟩ := ht
    obtain ⟨rest, hr', hp, he'⟩ := hb
    rw [trace_cond_of_ok hv, eval_cond_of_ok hv, Trace.events_append, List.map_append, he _ hv]
    refine ⟨route ++ rest, ?_, (List.prefix_append_right_inj route).mpr hp, ?_⟩
    · split at hr'
      case isTrue => exact .yes hr hr'
      case isFalse => exact .no hr hr'
    · intro v hv
      rw [he' v hv]
  case callee hv _ hi =>
    obtain ⟨route, hr, hp, -⟩ := hi
    rw [trace_call_of_error hv, eval_call_of_error hv]
    exact ⟨_, .call hr, hp.trans (List.prefix_append ..), nofun⟩
  case run hv _ hi =>
    obtain ⟨route, hr, -, he⟩ := hi
    rw [trace_call_of_lambda hv, Trace.events_append, List.map_append, he _ hv]
    exact ⟨_, .call hr, List.prefix_rfl, fun _ _ => rfl⟩
  case notCallable hv hl _ hi =>
    obtain ⟨route, hr, -, he⟩ := hi
    rw [trace_call_of_ok hv hl, eval_call_of_ok hv hl, Trace.events_append, List.append_nil, he _ hv]
    exact ⟨_, .call hr, List.prefix_append .., nofun⟩

namespace Trace

-- A trace ends with successes only, at an answer that is none, or at a callee that is no code.
inductive Ends : Trace C → Except Stop (Expr C) → Prop
  | value : t.Succeeds → Ends t (.ok v)
  | event : t.Succeeds → event.outcome = .error stop → Ends (t ++ { events := [event] }) (.error stop)
  | callee : t.Succeeds → (∀ code, v ≠ .lambda code) →
    Ends (t ++ { callees := [v] }) (.error (notCallable v))

variable {t u : Trace C} {value : Except Stop (Expr C)} {v : Expr C} {stop : Stop}

theorem Succeeds.of_ends (h : t.Ends (.ok v)) : t.Succeeds := by
  cases h
  assumption

namespace Ends

theorem after (h : u.Ends value) (ht : t.Succeeds) : (t ++ u).Ends value := by
  cases h
  case value hu => exact .value (ht.append hu)
  case event hu ho => exact append_assoc t .. ▸ .event (ht.append hu) ho
  case callee hu hv => exact append_assoc t .. ▸ .callee (ht.append hu) hv

theorem outcome (event : Event C) : Ends { events := [event] } event.outcome := by
  cases ho : event.outcome
  case ok v => exact .value ⟨by simpa using Event.succeeds_iff.mpr ⟨v, ho⟩, nofun⟩
  case error => exact .event (t := {}) ⟨nofun, nofun⟩ ho

theorem succeeds_of_mem_dropLast (h : t.Ends value) : ∀ event ∈ t.events.dropLast, event.Succeeds := by
  cases h
  case value ht => exact fun event he => ht.events event ((List.dropLast_sublist _).subset he)
  case event ht _ => simpa using ht.events
  case callee ht _ =>
    rw [events_append, List.append_nil]
    exact fun event he => ht.events event ((List.dropLast_sublist _).subset he)

theorem eq_quit_iff (h : t.Ends value) :
    value = .error .quit ↔
      ∃ name f, t.events.getLast? = some (.expanded name (.error f)) ∧ f.holdsQuit := by
  cases h
  case value ht => exact iff_of_false nofun ht.getLast?_ne_quit
  case event ht ho =>
    simp only [events_append, List.getLast?_concat, Option.some.injEq]
    rw [← ho, Event.outcome_eq_quit_iff]
  case callee ht _ =>
    rw [events_append, List.append_nil]
    exact iff_of_false nofun ht.getLast?_ne_quit

theorem fault?_of_error (h : t.Ends (.error stop)) :
    stop = .quit ∨ ∃ f, stop.fault? = some (.evaluation f) := by
  cases h
  case event event _ ho =>
    cases stop
    case quit => exact .inl rfl
    case failed f => exact .inr ⟨f, rfl⟩
    case hole => exact absurd ho event.outcome_ne_hole
  case callee => exact .inr ⟨_, rfl⟩

theorem exists_error_iff (h : t.Ends value) :
    (∃ stop, value = .error stop) ↔
      (∃ event, t.events.getLast? = some event ∧ ¬event.Succeeds) ∨
        ∃ v, t.callees.getLast? = some v ∧ ∀ code, v ≠ .lambda code := by
  cases h
  case value ht =>
    refine iff_of_false nofun ?_
    rintro (⟨event, hl, hs⟩ | ⟨v, hl, hv⟩)
    · exact hs (ht.events event (List.mem_of_getLast? hl))
    · obtain ⟨code, hc⟩ := ht.callees v (List.mem_of_getLast? hl)
      exact hv code hc
  case event stop event _ ho =>
    refine iff_of_true ⟨stop, rfl⟩ (.inl ⟨event, by simp, ?_⟩)
    rw [Event.succeeds_iff, ho]
    nofun
  case callee v _ _ hv => exact iff_of_true ⟨_, rfl⟩ (.inr ⟨v, by simp, hv⟩)

end Ends
end Trace

theorem trace_ends (hn : (e.eval m s).value ≠ .error .hole) : (e.trace m s).Ends (e.eval m s).value := by
  induction course m e s
  case hole => exact absurd rfl hn
  case macroName => exact .outcome (.expanded ..)
  case test hv _ hi =>
    rw [eval_cond_of_error hv, ← hv] at hn ⊢
    rw [trace_cond_of_error hv]
    exact hi hn
  case branch hv _ _ ht hb =>
    rw [eval_cond_of_ok hv] at hn ⊢
    rw [trace_cond_of_ok hv]
    rw [hv] at ht
    exact (hb hn).after (.of_ends (ht nofun))
  case callee hv _ hi =>
    rw [eval_call_of_error hv, ← hv] at hn ⊢
    rw [trace_call_of_error hv]
    exact hi hn
  case run code hv _ hi =>
    rw [trace_call_of_lambda hv, eval_call_of_lambda hv]
    rw [hv] at hi
    have hl : Trace.Succeeds (C := C) { callees := [.lambda code] } := ⟨nofun, by simp⟩
    exact .after (.after (.outcome (.ran ..)) hl) (.of_ends (hi nofun))
  case notCallable hv hl _ hi =>
    rw [trace_call_of_ok hv hl, eval_call_of_ok hv hl]
    rw [hv] at hi
    exact .callee (.of_ends (hi nofun)) hl
  all_goals exact .value ⟨nofun, nofun⟩

theorem eval_asks_in_order (m : Machine C σ) (s : σ) (hw : e.isWhole) :
    let value := (e.eval m s).value
    let events := (e.eval m.traced (s, [])).state.2
    (e.eval m.traced (s, [])).value = value ∧
    (∃ route, e.Route route ∧ route.Sublist e.nodes ∧ events.map Event.node <+: route ∧
      ∀ v, value = .ok v → events.map Event.node = route) ∧
    (∀ event ∈ events.dropLast, event.Succeeds) ∧
    (value = .error .quit ↔
      ∃ name f, events.getLast? = some (.expanded name (.error f)) ∧ f.holdsQuit) ∧
    (∀ stop, value = .error stop → stop = .quit ∨ ∃ f, stop.fault? = some (.evaluation f)) ∧
    ((∃ stop, value = .error stop) ↔
      (∃ event, events.getLast? = some event ∧ ¬event.Succeeds) ∨
        ∃ v, (e.trace m s).callees.getLast? = some v ∧ ∀ code, v ≠ .lambda code) := by
  have he : (e.trace m s).Ends (e.eval m s).value := trace_ends (eval_ne_hole e hw)
  simp only [eval_traced, List.nil_append]
  obtain ⟨route, hr, hp, hv⟩ := exists_route_of_trace m e s
  refine ⟨trivial, ⟨route, hr, hr.sublist, hp, hv⟩, he.succeeds_of_mem_dropLast, he.eq_quit_iff,
    fun stop hs => ?_, he.exists_error_iff⟩
  exact Trace.Ends.fault?_of_error (hs ▸ he)

theorem eval_asks_in_order_until_quit :
    let script : Script :=
      { faults := [("go", .signal .proceed), ("end", .context "cannot go on: " (.signal .quit))],
        codes := [("f", "+")], answer := Script.echo }
    let callee : Expr Bytes := .cond (.macroName "go") (.macroName "end") (.macroName "f")
    let e := Expr.cond (.call callee [.macroName "end"]) (.macroName "end") (.macroName "go")
    e.isWhole ∧
    (e.eval script.machine []).state =
      [.expand "go", .expand "f", .run "+" [.macroName "end"], .expand "end"] ∧
    (∀ event ∈ (e.eval script.machine.traced ([], [])).state.2.dropLast, event.Succeeds) ∧
    (e.eval script.machine []).value = .error .quit := by
  intro script callee e
  have hw : e.isWhole := by decide
  have h := eval_asks_in_order script.machine [] hw
  exact ⟨hw, rfl, h.2.2.1, h.2.2.2.1.mpr ⟨"end", _, rfl, rfl⟩⟩

end Expr
end TapeShell
