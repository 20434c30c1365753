import TapeShell.Proofs.Deck.Ledger
import TapeShell.Proofs.Tape.Printing
import TapeShell.Proofs.Text.Quoted
import TapeShell.Proofs.Wire.Arguments
import TapeShell.Proofs.Wire.Result
import TapeShell.Proofs.Wire.Schedule

namespace TapeShell

open Bytes Tape

theorem Tape.Program.isUtf8_source (p : Program) : isUtf8 p.source := by
  rw [source_eq_ofChars]
  exact isUtf8_ofChars _

section Format

variable {layout : Bytes} {strftime : Calendar.Formatter}

theorem Expansion.isUtf8_format {e : Expansion} (ht : isUtf8 (strftime layout e.time))
    (hn : isUtf8 e.name) : isUtf8 (e.format layout strftime) := by
  have h := isUtf8_append (isUtf8_append (isUtf8_append ht (isUtf8_ofString " @")) hn)
    (isUtf8_ofString "~ = `")
  exact isUtf8_append (isUtf8_append h e.code.isUtf8_source) (isUtf8_ofString "'")

theorem Execution.isUtf8_argLines (first : Nat) (args : List Bytes) : isUtf8 (argLines first args) := by
  induction args generalizing first
  case nil => rfl
  case cons arg args hi =>
    have h := isUtf8_append (isUtf8_append (isUtf8_ofString "\narg") (isUtf8_ofNat first))
      (isUtf8_ofString ": ")
    exact isUtf8_append (isUtf8_append h (Text.isUtf8_quoteWith _ arg)) (hi (first + 1))

-- Arguments and results are quoted, so they may be any bytes.
theorem Execution.isUtf8_format {e : Execution} (ht : isUtf8 (strftime layout e.time)) :
    isUtf8 (e.format layout strftime) := by
  have h := isUtf8_append (isUtf8_append (isUtf8_append ht (isUtf8_ofString " `")) e.code.isUtf8_source)
    (isUtf8_ofString "'")
  exact isUtf8_append (isUtf8_append (isUtf8_append h (isUtf8_argLines 1 e.args))
    (isUtf8_ofString "\nresult: ")) (Text.isUtf8_quoteWith _ e.result)

end Format

namespace Journal

theorem isUtf8_numbered {mark : Bytes} (hm : isUtf8 mark) {lines : List Bytes}
    (h : ∀ line ∈ lines, isUtf8 line) (first : Nat) : isUtf8 (numbered mark first lines) := by
  induction lines generalizing first
  case nil => rfl
  case cons line lines hi =>
    have ⟨hl, hs⟩ := List.forall_mem_cons.mp h
    have hn := isUtf8_append (isUtf8_append hm (isUtf8_ofNat first)) (isUtf8_ofString ": ")
    exact isUtf8_append (isUtf8_append (isUtf8_append hn hl) (isUtf8_ofString "\n")) (hi hs (first + 1))

theorem isUtf8_chapter {what mark : Bytes} (hw : isUtf8 what) (hm : isUtf8 mark) {lines : List Bytes}
    (h : ∀ line ∈ lines, isUtf8 line) : isUtf8 (chapter what mark lines) := by
  unfold chapter
  split
  case isTrue =>
    exact isUtf8_append (isUtf8_append (isUtf8_ofString "no log for ") hw) (isUtf8_ofString "\n")
  case isFalse =>
    have ht := isUtf8_append (isUtf8_append (isUtf8_ofString "log for ") hw) (isUtf8_ofString ": (")
    have ht := isUtf8_append (isUtf8_append ht (isUtf8_ofNat lines.length)) (isUtf8_ofString " entries)\n")
    exact isUtf8_append ht (isUtf8_numbered hm h 0)

structure Readable (layout : Bytes) (strftime : Calendar.Formatter) (j : Journal) : Prop where
  expansions : ∀ e ∈ j.expansions, isUtf8 (e.format layout strftime)
  executions : ∀ e ∈ j.executions, isUtf8 (e.format layout strftime)

theorem Readable.isUtf8_overview {layout : Bytes} {strftime : Calendar.Formatter} {j : Journal}
    (h : j.Readable layout strftime) : isUtf8 (j.overview layout strftime) :=
  isUtf8_append
    (isUtf8_chapter (isUtf8_ofString "macros") rfl (List.forall_mem_map.mpr h.expansions))
    (isUtf8_chapter (isUtf8_ofString "calls") (isUtf8_ofString "#") (List.forall_mem_map.mpr h.executions))

end Journal

namespace Deck

open Machine

section Readable

variable {c : Config} {d : Deck} {name : Bytes} {code : Program}

theorem mem_of_meaning_eq_code (h : meaning c d name = .code code) :
    name ∈ [ofString "greeting", ofString "A", ofString "log"] ∨ (name, code) ∈ c.macros := by
  unfold meaning at h
  repeat' split at h
  case isTrue hn => simp [hn]
  case isTrue hn => simp [hn]
  case isTrue hn => simp [hn]
  case h_1 hl =>
    cases h
    have ⟨before, after, hm, _⟩ := List.lookup_eq_some_iff.mp hl
    exact .inr (by simp [hm])
  all_goals cases h

variable (hn : ∀ name code, (name, code) ∈ c.macros → isUtf8 name)
  (ht : ∀ n, isUtf8 (c.strftime c.timeFormat (c.clock n)))
include hn ht

theorem readable_record {r : Request Program} {s : Success} (h : d.journal.Readable c.timeFormat c.strftime)
    (hs : d.Succeeds c r s) : (d.record c s).journal.Readable c.timeFormat c.strftime := by
  cases hs
  case expand name code hc =>
    have hu : isUtf8 name := by
      rcases mem_of_meaning_eq_code hc with hb | hm
      · simp only [List.mem_cons, List.not_mem_nil, or_false] at hb
        rcases hb with rfl | rfl | rfl <;> exact isUtf8_ofString _
      · exact hn name code hm
    refine ⟨?_, h.executions⟩
    rw [record_expansions]
    refine List.forall_mem_append.mpr ⟨h.expansions, List.forall_mem_singleton.mpr ?_⟩
    exact Expansion.isUtf8_format (ht _) hu
  case run code args result _ =>
    refine ⟨h.expansions, ?_⟩
    rw [record_executions]
    refine List.forall_mem_append.mpr ⟨h.executions, List.forall_mem_singleton.mpr ?_⟩
    exact Execution.isUtf8_format (ht _)

theorem readable_served (rs : List (Request Program)) :
    (served c rs).deck.journal.Readable c.timeFormat c.strftime :=
  served_induction (P := fun s => s.deck.journal.Readable c.timeFormat c.strftime) ⟨nofun, nofun⟩
    (fun _ _ _ h hx => readable_record hn ht h hx) rs

end Readable

section Log

variable {c : Config} {d : Deck}

theorem meaning_log : meaning c d "log" = .code (.printing (Bencode.encodeBytes (d.overview c))) :=
  rfl

theorem exchange_printing (maxCells : Int) (allowance : Nat) (bs input : Bytes) :
    exchange maxCells allowance (.printing bs) input = ⟨bs, none⟩ := by
  rw [exchange, Program.exec_printing]
  rfl

theorem call_printing {text : Bytes} (hl : text.length ≤ 2 ^ 31 - 1) (hu : isUtf8 text)
    {args : List (Expr Program)} (hw : Expr.allWhole args) :
    (Wire.call (exchange c.maxCells c.allowance (.printing (Bencode.encodeBytes text))) args d).value =
      .ok (.str text) := by
  obtain ⟨items, hi⟩ := Wire.exists_encodeAll Wire.exists_marshal args hw
  rw [Wire.Schedule.call_value (Wire.encodeArgs_of_encodeAll hi), exchange_printing]
  refine (Wire.decodeResult_encodeBytes hl).trans ?_
  rw [Wire.decodeText, if_pos hu]

theorem eval_log {args : List (Expr Program)} (hu : isUtf8 (d.overview c))
    (hl : (d.overview c).length ≤ 2 ^ 31 - 1) (hw : Expr.allWhole args) :
    let code : Program := .printing (Bencode.encodeBytes (d.overview c))
    let reply := (Expr.call (.macroName "log") args).eval (machine c) d
    reply.value = .ok (.str (d.overview c)) ∧
    reply.state = (d.record c (.expanded "log" code)).record c (.ran code args (.str (d.overview c))) := by
  intro code reply
  have ⟨hv, hs⟩ := expand_of_code (meaning_log (c := c) (d := d))
  have hc : ((Expr.macroName "log").eval (machine c) d).value = .ok (.lambda code) :=
    congrArg Expr.ofExpansion hv
  have ht : ((Expr.macroName "log").eval (machine c) d).state = d.record c (.expanded "log" code) := hs
  have ⟨hv, hs⟩ := run_of_ok (call_printing (c := c) (d := d.record c (.expanded "log" code)) hl hu hw)
  constructor
  case left =>
    rw [Expr.eval_call_of_lambda hc, ht]
    exact congrArg Expr.ofRun hv
  case right =>
    rw [Expr.eval_call_state_of_lambda hc, ht]
    exact hs

end Log

theorem eval_call_log (c : Config) (rs : List (Request Program)) (args : List (Expr Program))
    (hn : ∀ name code, (name, code) ∈ c.macros → isUtf8 name)
    (ht : ∀ n, isUtf8 (c.strftime c.timeFormat (c.clock n)))
    (hl : ((served c rs).deck.overview c).length ≤ 2 ^ 31 - 1) (hw : Expr.allWhole args) :
    let d := (served c rs).deck
    let code : Program := .printing (Bencode.encodeBytes (d.overview c))
    let reply := (Expr.call (.macroName "log") args).eval (machine c) d
    reply.value = .ok (.str (d.overview c)) ∧
    reply.state.journal.expansions = d.journal.expansions ++ [⟨c.clock d.readings, "log", code⟩] ∧
    reply.state.journal.executions = d.journal.executions ++
      [⟨c.clock (d.readings + 1), code, args.map Expr.display, d.overview c⟩] := by
  intro d code reply
  have ⟨hv, hs⟩ := eval_log (readable_served hn ht rs).isUtf8_overview hl hw
  refine ⟨hv, ?_, ?_⟩
  · rw [hs, record_expansions, record_expansions]
    exact List.append_nil _
  · rw [hs, record_executions, record_executions, record_readings]
    exact congrArg (· ++ _) (List.append_nil _)

-- One cell is enough, and what an earlier call was given need not be valid text.
theorem eval_call_log_quoted :
    let c : Config := { macros := [("B", [.inc])], maxCells := 1, clock := fun _ => { unix := 59 } }
    let rs : List (Request Program) := [.expand "B", .run (.printing "0:") [.str [0xFF]]]
    let reply := (Expr.call (.macroName "log") [.nil]).eval (machine c) (served c rs).deck
    isUtf8 [0xFF] = false ∧
    reply.value = .ok (.str ("log for macros: (1 entries)\n0: 00:00:59 @B~ = `+'\n" ++
      "log for calls: (1 entries)\n#0: 00:00:59 `" ++
      ((Program.printing "0:").source ++ "'\narg1: \"\\xff\"\nresult: \"\"\n"))) ∧
    reply.state.journal.expansions.map (·.name) = [Bytes.ofString "B", "log"] ∧
    reply.state.journal.executions.length = 2 := by
  have ht : isUtf8 (Calendar.Instant.format { unix := 59 } defaultTimeFormat) := by decide +kernel
  have ⟨hv, hx, he⟩ := eval_call_log
    { macros := [("B", [.inc])], maxCells := 1, clock := fun _ => { unix := 59 } }
    [.expand "B", .run (.printing "0:") [.str [0xFF]]] [.nil]
    (fun name code h => by simp at h; rw [h.left]; rfl) (fun _ => ht) (by decide +kernel) (by decide)
  refine ⟨by decide +kernel, hv.trans (congrArg (Except.ok ∘ Expr.str) ?_), ?_, ?_⟩
  · decide +kernel
  · rw [hx]
    decide +kernel
  · rw [he]
    decide +kernel

end Deck
end TapeShell
