import Mathlib.Algebra.Group.Nat.Defs
import TapeShell.Deck
import TapeShell.Proofs.Eval.Requests

namespace TapeShell

theorem Wire.call_state {C σ : Type} [Code C] (runner : Bytes → Exchange) (args : List (Expr C))
    (s : σ) : (call runner args s).state = s := by
  cases h : encodeArgs args
  case error => simp only [call, callIn, h]; rfl
  case ok input => cases hf : (runner input).fault <;> simp only [call, callIn, h, hf] <;> rfl

theorem Wire.callIn_eq_call {C σ : Type} [Code C] (runner : Bytes → Exchange) (args : List (Expr C)) :
    (callIn runner args : Action σ _) = call runner args :=
  rfl

namespace Deck

open Calendar Machine Tape

inductive Success where
  | expanded (name : Bytes) (code : Program)
  | ran (code : Program) (args : List (Expr Program)) (result : Expr Program)

namespace Success

def expansion? (time : Instant) : Success → Option Expansion
  | .expanded name code => some ⟨time, name, code⟩
  | .ran .. => none

def execution? (time : Instant) : Success → Option Execution
  | .expanded .. => none
  | .ran code args result => some ⟨time, code, args.map Expr.display, result.display⟩

end Success

-- The entries that successes have in a journal. The one with the number `j` among all of them has the
-- time of reading `j`.
def Config.entries {α : Type} (c : Config) (entryOf : Instant → Success → Option α)
    (ss : List Success) : List α :=
  ss.zipIdx.filterMap fun (s, j) => entryOf (c.clock j) s

theorem Config.entries_concat {α : Type} (c : Config) (entryOf : Instant → Success → Option α)
    (ss : List Success) (s : Success) :
    c.entries entryOf (ss ++ [s]) = c.entries entryOf ss ++ (entryOf (c.clock ss.length) s).toList := by
  rw [entries, List.zipIdx_append, List.filterMap_append, Nat.zero_add]
  cases h : entryOf (c.clock ss.length) s <;> simp [entries, h]

def serve (c : Config) : Request Program → Action Deck (Except Fault Success)
  | .expand name => Except.map (.expanded name) <$> expand c name
  | .run code args => Except.map (.ran code args) <$> run c code args

structure Served where
  deck : Deck := {}
  successes : List Success := []

def Served.next (c : Config) (s : Served) (r : Request Program) : Served where
  deck := (serve c r s.deck).state
  successes := s.successes ++ (serve c r s.deck).value.toOption.toList

def served (c : Config) (rs : List (Request Program)) : Served :=
  rs.foldl (Served.next c) {}

section Replies

variable {c : Config} {d : Deck} {name : Bytes}

theorem expand_of_code {p : Program} (h : meaning c d name = .code p) :
    (expand c name d).value = .ok p ∧
      (expand c name d).state = (recordExpansion (reading c) name p d).state := by
  simp only [expand, expandIn, bind, Acts.get, Action.get, h]
  exact ⟨rfl, rfl⟩

theorem expand_of_notice {text : Bytes} (h : meaning c d name = .notice text) :
    expand c name d = ⟨.error (.signal .proceed), d, [.write text]⟩ := by
  simp only [expand, expandIn, bind, Acts.get, Action.get, h]
  rfl

theorem expand_of_quit (h : meaning c d name = .quit) :
    expand c name d = ⟨.error (.signal .quit), d, []⟩ := by
  simp only [expand, expandIn, bind, Acts.get, Action.get, h]
  rfl

theorem expand_of_unknown (h : meaning c d name = .unknown) :
    expand c name d =
      ⟨.error (.plain ("failed to expand macro `" ++ name.escape ++ "`")), d, []⟩ := by
  simp only [expand, expandIn, bind, Acts.get, Action.get, h]
  rfl

variable {code : Program} {args : List (Expr Program)}

theorem run_of_error {f : Fault}
    (h : (Wire.call (exchange c.maxCells c.allowance code) args d).value = .error f) :
    (run c code args d).value = .error f ∧ (run c code args d).state = d := by
  simp only [run, runIn, bind, Wire.callIn_eq_call, h, Wire.call_state]
  exact ⟨rfl, rfl⟩

theorem run_of_ok {v : Expr Program}
    (h : (Wire.call (exchange c.maxCells c.allowance code) args d).value = .ok v) :
    (run c code args d).value = .ok v ∧ (run c code args d).state =
      (recordExecution (reading c) code (args.map Expr.display) v.display d).state := by
  simp only [run, runIn, bind, Wire.callIn_eq_call, h, Wire.call_state]
  exact ⟨rfl, rfl⟩

end Replies

section Record

def record (c : Config) (d : Deck) : Success → Deck
  | .expanded name code => (recordExpansion (reading c) name code d).state
  | .ran code args result => (recordExecution (reading c) code (args.map Expr.display) result.display d).state

variable (c : Config) (d : Deck) (s : Success)

theorem record_readings : (d.record c s).readings = d.readings + 1 := by
  cases s <;> rfl

theorem record_expansions : (d.record c s).journal.expansions =
    d.journal.expansions ++ (s.expansion? (c.clock d.readings)).toList := by
  cases s
  case expanded => rfl
  case ran => exact (List.append_nil _).symm

theorem record_executions : (d.record c s).journal.executions =
    d.journal.executions ++ (s.execution? (c.clock d.readings)).toList := by
  cases s
  case expanded => exact (List.append_nil _).symm
  case ran => rfl

end Record

inductive Succeeds (c : Config) (d : Deck) : Request Program → Success → Prop
  | expand : meaning c d name = .code code → Succeeds c d (.expand name) (.expanded name code)
  | run : (Wire.call (exchange c.maxCells c.allowance code) args d).value = .ok result →
    Succeeds c d (.run code args) (.ran code args result)

theorem serve_cases (c : Config) (d : Deck) (r : Request Program) :
    (∃ f, (serve c r d).value = .error f ∧ (serve c r d).state = d) ∨
    ∃ s, d.Succeeds c r s ∧ (serve c r d).value = .ok s ∧ (serve c r d).state = d.record c s := by
  cases r
  case expand name =>
    have hv : (serve c (.expand name) d).value = (expand c name d).value.map (.expanded name) := rfl
    have hs : (serve c (.expand name) d).state = (expand c name d).state := rfl
    rw [hv, hs]
    cases h : meaning c d name
    case code p =>
      have ⟨hv, hs⟩ := expand_of_code h
      rw [hv, hs]
      exact .inr ⟨_, .expand h, rfl, rfl⟩
    case notice =>
      rw [expand_of_notice h]
      exact .inl ⟨_, rfl, rfl⟩
    case quit =>
      rw [expand_of_quit h]
      exact .inl ⟨_, rfl, rfl⟩
    case unknown =>
      rw [expand_of_unknown h]
      exact .inl ⟨_, rfl, rfl⟩
  case run code args =>
    have hv : (serve c (.run code args) d).value = (run c code args d).value.map (.ran code args) := rfl
    have hs : (serve c (.run code args) d).state = (run c code args d).state := rfl
    rw [hv, hs]
    cases h : (Wire.call (exchange c.maxCells c.allowance code) args d).value
    case error =>
      have ⟨hv, hs⟩ := run_of_error h
      rw [hv, hs]
      exact .inl ⟨_, rfl, rfl⟩
    case ok =>
      have ⟨hv, hs⟩ := run_of_ok h
      rw [hv, hs]
      exact .inr ⟨_, .run h, rfl, rfl⟩

theorem Served.next_cases (c : Config) (s : Served) (r : Request Program) :
    s.next c r = s ∨
    ∃ x, s.deck.Succeeds c r x ∧ s.next c r = ⟨s.deck.record c x, s.successes ++ [x]⟩ := by
  rcases serve_cases c s.deck r with ⟨f, hv, hs⟩ | ⟨x, hx, hv, hs⟩
  · exact .inl (by simp [next, hv, hs, Except.toOption])
  · exact .inr ⟨x, hx, by simp [next, hv, hs, Except.toOption]⟩

-- What holds of a new deck, and goes on to hold with every success, holds always.
theorem served_induction {c : Config} {P : Served → Prop} (fresh : P {})
    (success : ∀ s r x, P s → s.deck.Succeeds c r x → P ⟨s.deck.record c x, s.successes ++ [x]⟩)
    (rs : List (Request Program)) : P (served c rs) := by
  refine List.foldlRecOn rs _ fresh ?_
  intro s hs r _
  rcases s.next_cases c r with hn | ⟨x, hx, hn⟩
  · rwa [hn]
  · rw [hn]
    exact success s r x hs hx

structure Served.Recorded (c : Config) (s : Served) : Prop where
  expansions : s.deck.journal.expansions = c.entries Success.expansion? s.successes
  executions : s.deck.journal.executions = c.entries Success.execution? s.successes
  readings   : s.deck.readings = s.successes.length

theorem recorded_served (c : Config) (rs : List (Request Program)) : (served c rs).Recorded c := by
  refine served_induction ?fresh ?success rs
  case fresh => exact ⟨rfl, rfl, rfl⟩
  case success =>
    intro s r x h _
    constructor
    case expansions => simp only [record_expansions, Config.entries_concat, h.expansions, h.readings]
    case executions => simp only [record_executions, Config.entries_concat, h.executions, h.readings]
    case readings   => simp only [record_readings, List.length_append, List.length_singleton, h.readings]

section Numbers

variable {c : Config} {d : Deck} {name : Bytes} {n : Nat}

theorem index?_of_toNat? (h : name.toNat? = some n) (hn : n ≤ 2 ^ 63 - 1) : index? name = some n := by
  have hm : n ≤ maxIndex := hn
  simp [index?, h, hm]

theorem meaning_of_number (h : name.toNat? = some n) (hn : n ≤ 2 ^ 63 - 1)
    (hc : c.macros.lookup name = none) : meaning c d name = .notice (d.showExpansion c n) := by
  have hne {builtIn : Bytes} (hb : builtIn.toNat? = none) : name ≠ builtIn := by
    rintro rfl
    rw [h] at hb
    cases hb
  simp (disch := decide) only [meaning, hne, if_false, hc, index?_of_toNat? h hn]

theorem meaning_of_marked_number (h : name.toNat? = some n) (hn : n ≤ 2 ^ 63 - 1)
    (hc : c.macros.lookup ("#" ++ name) = none) :
    meaning c d ("#" ++ name) = .notice (d.showExecution c n) := by
  have hb : Bytes.ofString "#" = [0x23] := rfl
  rw [hb, List.singleton_append] at hc ⊢
  have hne {builtIn : Bytes} (hb : builtIn.head? ≠ some 0x23) : 0x23 :: name ≠ builtIn := by
    rintro rfl
    exact hb rfl
  have hi : index? (0x23 :: name) = none := rfl
  have ha : Bytes.after? "#" (0x23 :: name) = some name := by simp [Bytes.after?, hb]
  simp (disch := decide) only [meaning, hne, if_false, hc, hi, ha, Option.bind_some, index?_of_toNat? h hn]

end Numbers

structure Shows (text : Bytes) (entries : List Bytes) (n : Nat) (notice : Bytes) : Prop where
  entry   : ∀ e, entries[n]? = some e → text = e ++ "\n"
  missing : text = notice ↔ entries.length ≤ n

theorem shows_of_ne {α : Type} {xs : List α} {format : α → Bytes} {n : Nat} {text notice : Bytes}
    (h : text = match xs[n]? with | some x => format x ++ "\n" | none => notice)
    (hne : ∀ x, format x ++ "\n" ≠ notice) : Shows text (xs.map format) n notice := by
  rw [h]
  cases hx : xs[n]?
  case none =>
    have hle : (xs.map format).length ≤ n := by simpa using hx
    refine ⟨?_, iff_of_true rfl hle⟩
    intro e he
    rw [List.getElem?_map, hx] at he
    cases he
  case some x =>
    have ⟨hlt, _⟩ := List.getElem?_eq_some_iff.mp hx
    refine ⟨?_, iff_of_false (hne x) (by rw [List.length_map]; omega)⟩
    intro e he
    rw [List.getElem?_map, hx] at he
    cases he
    rfl

-- Notices end in a word, and entries in a quote.
theorem append_ne_noEntry {b : UInt8} (hb : b ≠ 'w'.toUInt8) (bs what : Bytes) (n : Nat) :
    bs ++ [b] ++ "\n" ≠ noEntry what n := by
  intro h
  have hw : Bytes.ofString "\ntype `(@log~)` for log overview\n" =
      Bytes.ofString "\ntype `(@log~)` for log overvie" ++ ['w'.toUInt8, 0x0A] := rfl
  rw [noEntry, hw, ← List.append_assoc, List.append_assoc] at h
  exact hb (List.cons.inj (List.append_inj_right' h rfl)).left

theorem shows_expansion (c : Config) (d : Deck) (n : Nat) :
    Shows (d.showExpansion c n) (d.journal.expansions.map (·.format c.timeFormat c.strftime)) n
      (noEntry "macro log entry for index " n) := by
  refine shows_of_ne ?text fun _ => append_ne_noEntry (b := '\''.toUInt8) (by decide) _ _ n
  case text =>
    rw [showExpansion]
    cases d.journal.expansions[n]? <;> rfl

theorem shows_execution (c : Config) (d : Deck) (n : Nat) :
    Shows (d.showExecution c n) (d.journal.executions.map (·.format c.timeFormat c.strftime)) n
      (noEntry "call log entry for index #" n) := by
  refine shows_of_ne ?text fun e => ?ne
  case text =>
    rw [showExecution]
    cases d.journal.executions[n]? <;> rfl
  case ne =>
    rw [Execution.format, Bytes.quote, Text.quoteWith, ← List.append_assoc]
    exact append_ne_noEntry (b := '"'.toUInt8) (by decide) _ _ n

theorem journal_lists_successes (c : Config) (rs : List (Request Program)) :
    (served c rs).deck.journal.expansions = c.entries Success.expansion? (served c rs).successes ∧
    (served c rs).deck.journal.executions = c.entries Success.execution? (served c rs).successes ∧
    (served c rs).deck.readings = (served c rs).successes.length ∧
    (∀ r s, (serve c r (served c rs).deck).value = .ok s →
      (serve c r (served c rs).deck).state.readings = (served c rs).deck.readings + 1) ∧
    (∀ r f, (serve c r (served c rs).deck).value = .error f →
      (serve c r (served c rs).deck).state = (served c rs).deck) ∧
    ∀ name n, name.toNat? = some n → n ≤ 2 ^ 63 - 1 →
      (c.macros.lookup name = none → ∃ text,
        expand c name (served c rs).deck =
          ⟨.error (.signal .proceed), (served c rs).deck, [.write text]⟩ ∧
        Shows text ((c.entries Success.expansion? (served c rs).successes).map
          (·.format c.timeFormat c.strftime)) n
          (noEntry "macro log entry for index " n)) ∧
      (c.macros.lookup ("#" ++ name) = none → ∃ text,
        expand c ("#" ++ name) (served c rs).deck =
          ⟨.error (.signal .proceed), (served c rs).deck, [.write text]⟩ ∧
        Shows text ((c.entries Success.execution? (served c rs).successes).map
          (·.format c.timeFormat c.strftime)) n
          (noEntry "call log entry for index #" n)) := by
  have ⟨hx, hr, hn⟩ := recorded_served c rs
  refine ⟨hx, hr, hn, ?reads, ?unchanged, fun name n h hle => ⟨fun hc => ?expansion, fun hc => ?execution⟩⟩
  case reads =>
    intro r s hv
    rcases serve_cases c (served c rs).deck r with ⟨f, hf, _⟩ | ⟨x, _, _, hs⟩
    · rw [hf] at hv
      cases hv
    · rw [hs, record_readings]
  case unchanged =>
    intro r f hv
    rcases serve_cases c (served c rs).deck r with ⟨_, _, hs⟩ | ⟨x, _, hx, _⟩
    · exact hs
    · rw [hx] at hv
      cases hv
  case expansion =>
    rw [← hx]
    exact ⟨_, expand_of_notice (meaning_of_number h hle hc), shows_expansion ..⟩
  case execution =>
    rw [← hr]
    exact ⟨_, expand_of_notice (meaning_of_marked_number h hle hc), shows_execution ..⟩

theorem journal_lists_successes_mixed :
    let c : Config := { macros := [("B", [.inc])], clock := fun n => { unix := n } }
    let rs : List (Request Program) :=
      [.expand "B", .run [.put] [], .expand "C", .run (.printing "0:") [.nil], .expand "B"]
    Bytes.toNat? "1" = some 1 ∧ c.macros.lookup (Bytes.ofString "1") = none ∧
    (served c rs).deck.readings = 3 ∧
    expand c "1" (served c rs).deck =
      ⟨.error (.signal .proceed), (served c rs).deck, [.write "00:00:02 @B~ = `+'\n"]⟩ ∧
    expand c ("#" ++ Bytes.ofString "1") (served c rs).deck =
      ⟨.error (.signal .proceed), (served c rs).deck, [.write (noEntry "call log entry for index #" 1)]⟩ := by
  have ⟨_, _, hr, _, _, h⟩ := journal_lists_successes
    { macros := [("B", [.inc])], clock := fun n => { unix := n } }
    [.expand "B", .run [.put] [], .expand "C", .run (.printing "0:") [.nil], .expand "B"]
  have ⟨hx, he⟩ := h "1" 1 rfl (by decide)
  have ⟨text, hx, ht⟩ := hx rfl
  have ⟨notice, he, hn⟩ := he rfl
  have ht := ht.entry (Bytes.ofString "00:00:02 @B~ = `+'") (by decide +kernel)
  have hn := hn.missing.mpr (by decide +kernel)
  refine ⟨rfl, rfl, hr.trans (by decide +kernel), ?_, ?_⟩
  · exact hx.trans (ht ▸ rfl)
  · exact he.trans (hn ▸ rfl)

end Deck
end TapeShell
