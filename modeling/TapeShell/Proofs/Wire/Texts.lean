import TapeShell.Machine.Scripted
import TapeShell.Proofs.Reader.Grammar
import TapeShell.Proofs.Wire.Arguments
import TapeShell.Proofs.Wire.Result

namespace TapeShell

namespace Grammar

variable {C : Type} {compile : Bytes → Except Fault C}

mutual

theorem Writes.exists_chars {cs : List Char} {e : Expr C} (h : Writes compile cs e) :
    ∀ text ∈ e.texts, ∃ ms, text = Bytes.ofChars ms := by
  match h with
  | .lambda .. | .nil _ => nofun
  | .str .. | .macroName _ => exact List.forall_mem_singleton.mpr ⟨_, rfl⟩
  | .cond ht hy hn =>
    simp only [Expr.texts, List.forall_mem_append]
    exact ⟨ht.exists_chars, hy.exists_chars, hn.exists_chars⟩
  | .call hc hs _ =>
    simp only [Expr.texts, List.forall_mem_append]
    exact ⟨hc.exists_chars, hs.exists_chars⟩

theorem Nested.exists_chars {cs : List Char} {e : Expr C} (h : Nested compile cs e) :
    ∀ text ∈ e.texts, ∃ ms, text = Bytes.ofChars ms := by
  match h with
  | .intro _ h => exact h.exists_chars

theorem NestedAll.exists_chars {cs : List Char} {es : List (Expr C)} (h : NestedAll compile cs es) :
    ∀ text ∈ Expr.textsAll es, ∃ ms, text = Bytes.ofChars ms := by
  match h with
  | .nil => nofun
  | .cons h hs =>
    simp only [Expr.textsAll, List.forall_mem_append]
    exact ⟨h.exists_chars, hs.exists_chars⟩

end

end Grammar

namespace Reader

variable {C : Type} (compile : Bytes → Except Fault C)

def source? (r : Reader C) (c : Char) : Option Bytes :=
  match r.place with
  | .inside .lambda content => if c = '\'' then some (Bytes.ofChars content.reverse) else none
  | _ => none

def sources (r : Reader C) : List Char → List Bytes
  | [] => []
  | c :: cs =>
    (r.source? c).toList ++
      match r.step compile c with
      | .more r => r.sources cs
      | _ => []

variable {compile} {compile' : Bytes → Except Fault C} {r : Reader C}

theorem exists_chars_of_source? {c : Char} {src : Bytes} (h : r.source? c = some src) :
    ∃ cs, src = Bytes.ofChars cs := by
  unfold source? at h
  repeat' split at h
  case isTrue =>
    cases h
    exact ⟨_, rfl⟩
  all_goals cases h

theorem exists_chars_of_mem_sources {cs : List Char} {src : Bytes} (h : src ∈ r.sources compile cs) :
    ∃ ms, src = Bytes.ofChars ms := by
  induction cs generalizing r
  case nil => cases h
  case cons c cs hi =>
    rw [sources, List.mem_append, Option.mem_toList] at h
    rcases h with h | h
    case inl => exact exists_chars_of_source? h
    case inr =>
      split at h
      case h_1 => exact hi h
      case h_2 => cases h

-- A compiler is asked about nothing else.
theorem step_congr {c : Char} (h : ∀ src ∈ r.source? c, compile' src = compile src) :
    r.step compile' c = r.step compile c := by
  rcases r with ⟨frames, _ | ⟨l, content⟩ | ⟨l, content⟩⟩
  case inside =>
    by_cases hc : c = l.delimiter
    case neg => simp only [step, if_neg hc]
    case pos =>
      cases l
      case lambda =>
        have hs := h (Bytes.ofChars content.reverse) (if_pos hc)
        simp only [step, if_pos hc, closeLiteral, hs]
      all_goals rfl
  all_goals rfl

theorem runChars_congr {cs : List Char} (h : ∀ src ∈ r.sources compile cs, compile' src = compile src) :
    r.runChars compile' cs = r.runChars compile cs := by
  induction cs generalizing r
  case nil => rfl
  case cons c cs hi =>
    simp only [sources, List.forall_mem_append, Option.mem_toList] at h
    rw [runChars_cons, runChars_cons, step_congr h.left]
    cases hs : r.step compile c
    case more =>
      rw [hs] at h
      exact hi h.right
    all_goals rfl

end Reader

namespace Expr

variable {C : Type} {compile compile' : Bytes → Except Fault C} {text : Bytes}

def sources (compile : Bytes → Except Fault C) (text : Bytes) : List Bytes :=
  Reader.sources compile {} text.chars

theorem read_congr (h : ∀ src ∈ sources compile text, compile' src = compile src) :
    read compile' text = read compile text := by
  rw [read_eq_readChars, read_eq_readChars, readChars, readChars, Reader.runChars_congr h]

theorem exists_chars_of_read {e : Expr C} (h : read compile text = .ok e) :
    ∀ t ∈ e.texts, ∃ cs, t = Bytes.ofChars cs := by
  rw [read_eq_readChars, readChars_eq_ok_iff] at h
  have ⟨_, _, _, _, _, hw, _⟩ := h
  exact hw.exists_chars

end Expr

namespace Wire

open TapeShell.Expr

variable {C : Type} [Code C]

-- What becomes of an expression that is sent, and sent back as it is.
def echo (e : Expr C) : Except Fault (Expr C) :=
  encode e >>= decodeResult

theorem echo_str {s : Bytes} (h : s.length ≤ 2 ^ 31 - 1) :
    echo (.str s : Expr C) = .ok (decodeText s) :=
  decodeResult_encodeBytes h

theorem echo_str_eq_iff {s : Bytes} (h : s.length ≤ 2 ^ 31 - 1) :
    echo (.str s : Expr C) = .ok (.str s) ↔ ∃ cs, s = Bytes.ofChars cs := by
  rw [echo_str h, Except.ok.injEq, decodeText_eq_str_iff, and_iff_right rfl]

theorem echo_str_of_invalid {s : Bytes} (h : s.length ≤ 2 ^ 31 - 1) (hs : ¬∃ cs, s = Bytes.ofChars cs) :
    echo (.str s : Expr C) = .ok .nil := by
  rw [echo_str h, decodeText, if_neg (mt Bytes.isUtf8_iff.mp hs)]

theorem read_text_survives (compile : Bytes → Except Fault C) :
    (∀ text e, read compile text = .ok e → ∀ t ∈ e.texts,
      (∃ cs, t = Bytes.ofChars cs) ∧ (t.length ≤ 2 ^ 31 - 1 → echo (.str t : Expr C) = .ok (.str t))) ∧
    (∀ text, (∀ src ∈ sources compile text, ∃ cs, src = Bytes.ofChars cs) ∧
      ∀ compile' : Bytes → Except Fault C,
        (∀ src ∈ sources compile text, compile' src = compile src) →
          read compile' text = read compile text) ∧
    (∀ s, s.length ≤ 2 ^ 31 - 1 →
      (echo (.str s : Expr C) = .ok (.str s) ↔ ∃ cs, s = Bytes.ofChars cs) ∧
      ((¬∃ cs, s = Bytes.ofChars cs) → echo (.str s : Expr C) = .ok .nil)) ∧
    echo (.nil : Expr C) = .ok (.str []) ∧ truthy (.str [] : Expr C) = false := by
  refine ⟨?read, fun text => ⟨fun src => Reader.exists_chars_of_mem_sources, fun _ => read_congr⟩,
    fun s hs => ⟨echo_str_eq_iff hs, echo_str_of_invalid hs⟩, echo_str (Nat.zero_le _), rfl⟩
  case read =>
    intro text e he t ht
    have hv := exists_chars_of_read he t ht
    exact ⟨hv, fun hl => (echo_str_eq_iff hl).mpr hv⟩

-- Two bytes of a character are cut off by the quote, and one that starts no character stands in a source.
theorem read_text_survives_stray_bytes :
    let text : Bytes :=
      [0x28, 0x60, 0x2B, 0xFF, 0x27, 0x27, 0x61, 0xE2, 0x98, 0x27, 0x40, 0x6D, 0x7E, 0x29]
    let e : Expr Bytes := .call (.lambda "+\uFFFD") [.str "a\uFFFD\uFFFD", .macroName "m"]
    read Script.compile text = .ok e ∧ Bytes.ofString "a\uFFFD\uFFFD" ∈ e.texts ∧
    echo (.str "a\uFFFD\uFFFD" : Expr Bytes) = .ok (.str "a\uFFFD\uFFFD") ∧
    echo (.str [0x61, 0xE2, 0x98] : Expr Bytes) = .ok .nil ∧
    sources Script.compile text = [Bytes.ofString "+\uFFFD"] ∧
    read (fun _ => Script.compile "+\uFFFD") text = .ok e := by
  intro text e
  have ⟨hr, hs, ht, _⟩ := read_text_survives Script.compile
  have hc : text.chars = ['(', '`', '+', '\uFFFD', '\'', '\'', 'a', '\uFFFD', '\uFFFD', '\'', '@', 'm',
      '~', ')'] := by decide +kernel
  have he : read Script.compile text = .ok e := by
    rw [read_eq_readChars, hc]
    rfl
  have hsrc : sources Script.compile text = [Bytes.ofString "+\uFFFD"] := by
    rw [sources, hc]
    rfl
  have hmem : Bytes.ofString "a\uFFFD\uFFFD" ∈ e.texts := List.mem_cons_self
  refine ⟨he, hmem, (hr text e he _ hmem).right (by decide), ?invalid, hsrc, ?compiled⟩
  case invalid =>
    exact (ht [0x61, 0xE2, 0x98] (by decide)).right (mt Bytes.isUtf8_iff.mpr (by decide +kernel))
  case compiled =>
    refine ((hs text).right _ ?_).trans he
    rw [hsrc]
    exact List.forall_mem_singleton.mpr rfl

end Wire
end TapeShell
