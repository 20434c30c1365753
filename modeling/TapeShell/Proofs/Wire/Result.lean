import Mathlib.Logic.ExistsUnique
import TapeShell.Proofs.Bencode.Canonical
import TapeShell.Proofs.Text.Utf8
import TapeShell.Wire

namespace TapeShell.Wire

open Bencode

inductive Framing where
  | whole (v : Value)
  | overrun (v : Value) (rest : Bytes)
  | broken (e : DecodeError)

namespace Framing

def Describes : Framing → Bytes → Prop
  | whole v, raw        => raw = v.encode ∧ v.Fits
  | overrun v rest, raw => raw = v.encode ++ rest ∧ v.Fits ∧ rest ≠ []
  | broken e, raw       => (∀ v : Value, v.Fits → ¬v.encode <+: raw) ∧ (Bencode.decode raw).1 = .error e

def result (C : Type) : Framing → Bytes → Except Fault (Expr C)
  | whole v, _      => .ok (Wire.decode v)
  | overrun .., raw => .error (.result raw .outputAfterResult)
  | broken e, raw   => .error (.result raw (.decoding e))

def of (raw : Bytes) : Framing :=
  match Bencode.decode raw with
  | (.ok v, [])        => whole v
  | (.ok v, b :: rest) => overrun v (b :: rest)
  | (.error e, _)      => broken e

theorem describes_of (raw : Bytes) : (of raw).Describes raw := by
  rcases h : Bencode.decode raw with ⟨e | v, rest⟩
  case error =>
    simp only [of, h]
    refine ⟨?_, by rw [h]⟩
    rintro v hv ⟨rest', rfl⟩
    rw [decode_encode_append hv] at h
    cases h
  case ok =>
    have ⟨hr, hv⟩ := eq_encode_append_of_decode h
    cases rest <;> simp only [of, h]
    case nil => exact ⟨by rw [hr, List.append_nil], hv⟩
    case cons => exact ⟨hr, hv, by simp⟩

theorem eq_of_describes {framing : Framing} {raw : Bytes} (h : framing.Describes raw) :
    framing = of raw := by
  cases framing
  case whole v =>
    have ⟨hr, hv⟩ := h
    have hd := decode_encode_append hv []
    rw [List.append_nil, ← hr] at hd
    rw [of, hd]
  case overrun v rest =>
    have ⟨hr, hv, hn⟩ := h
    have hd := decode_encode_append hv rest
    rw [← hr] at hd
    cases rest
    case nil => contradiction
    case cons => rw [of, hd]
  case broken e =>
    have ⟨_, he⟩ := h
    rcases hd : Bencode.decode raw with ⟨p, rest⟩
    rw [hd] at he
    cases he
    rw [of, hd]

theorem existsUnique_describes (raw : Bytes) : ∃! framing : Framing, framing.Describes raw :=
  ⟨of raw, describes_of raw, fun _ => eq_of_describes⟩

end Framing

variable {C : Type}

theorem decodeResult_eq_result_of (raw : Bytes) : decodeResult raw = (Framing.of raw).result C raw := by
  rcases h : Bencode.decode raw with ⟨e | v, rest⟩
  case error => simp only [decodeResult, Framing.of, h, Framing.result]
  case ok =>
    cases rest
    all_goals simp only [decodeResult, Framing.of, h, Framing.result]

theorem decodeResult_encodeBytes {bs : Bytes} (h : bs.length ≤ 2 ^ 31 - 1) :
    decodeResult (encodeBytes bs) = .ok (decodeText bs : Expr C) := by
  have hd := decode_encode_append (v := .bytes bs) h []
  rw [List.append_nil, Value.encode] at hd
  simp only [decodeResult, hd, decode]

theorem decodeText_eq_str_iff {bs s : Bytes} :
    (decodeText bs : Expr C) = .str s ↔ bs = s ∧ ∃ cs, s = Bytes.ofChars cs := by
  rw [← Bytes.isUtf8_iff, decodeText]
  split
  case isTrue h =>
    rw [Expr.str.injEq]
    exact ⟨fun hs => ⟨hs, hs ▸ h⟩, And.left⟩
  case isFalse h =>
    refine ⟨nofun, ?_⟩
    rintro ⟨rfl, hs⟩
    contradiction

theorem decode_eq_str_iff {v : Value} {s : Bytes} :
    (decode v : Expr C) = .str s ↔
      (v = .bytes s ∨ v = .dict [(Bytes.ofString "str", .bytes s)]) ∧ ∃ cs, s = Bytes.ofChars cs := by
  fun_cases decode v
  case case1 bs => simp [decodeText_eq_str_iff]
  case case2 bs => simp [decodeText_eq_str_iff]
  case case3 key bs hk => simp [hk]
  case case4 hb hd =>
    refine ⟨nofun, ?_⟩
    rintro ⟨rfl | rfl, _⟩
    · exact absurd rfl (hb s)
    · exact absurd rfl (hd _ s)

theorem decode_eq_nil_or_str (v : Value) :
    (decode v : Expr C) = .nil ∨ ∃ s, (decode v : Expr C) = .str s := by
  have ht (bs : Bytes) : (decodeText bs : Expr C) = .nil ∨ ∃ s, (decodeText bs : Expr C) = .str s := by
    unfold decodeText
    split
    case isTrue => exact .inr ⟨bs, rfl⟩
    case isFalse => exact .inl rfl
  fun_cases decode v
  case case1 bs => exact ht bs
  case case2 bs => exact ht bs
  all_goals exact .inl rfl

theorem decodeResult_by_framing (C : Type) (raw : Bytes) :
    (∃! framing : Framing, framing.Describes raw) ∧
    (∀ framing : Framing, framing.Describes raw → decodeResult raw = framing.result C raw) ∧
    (∀ v s, (decode v : Expr C) = .str s ↔
      (v = .bytes s ∨ v = .dict [(Bytes.ofString "str", .bytes s)]) ∧ ∃ cs, s = Bytes.ofChars cs) ∧
    ∀ v, (∀ s, (decode v : Expr C) ≠ .str s) → (decode v : Expr C) = .nil := by
  refine ⟨Framing.existsUnique_describes raw, ?result, fun _ _ => decode_eq_str_iff, ?nil⟩
  case result =>
    intro framing h
    rw [decodeResult_eq_result_of, Framing.eq_of_describes h]
  case nil =>
    intro v h
    exact (decode_eq_nil_or_str v).resolve_right fun ⟨s, hs⟩ => h s hs

end TapeShell.Wire
