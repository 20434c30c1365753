import Mathlib.Data.List.Induction
import TapeShell.Proofs.Bencode.Failures

namespace TapeShell

namespace Bytes

variable {digits p q : Bytes}

theorem digitsValue_le_append (p q : Bytes) : digitsValue p ≤ digitsValue (p ++ q) := by
  induction q generalizing p
  case nil => exact Nat.le_of_eq (by rw [List.append_nil])
  case cons b q hi =>
    have := hi (p ++ [b])
    rw [digitsValue_concat, List.append_assoc, List.singleton_append] at this
    omega

-- The induction is on the digits from the last one backwards, as this is how the value is built up.
theorem exists_exceeding {limit : Nat} (h : limit < digitsValue digits) :
    ∃ p b q, digits = p ++ b :: q ∧ digitsValue p ≤ limit ∧ limit < digitsValue (p ++ [b]) := by
  induction digits using List.reverseRecOn
  case nil => exact absurd h (Nat.not_lt_zero limit)
  case append_singleton digits c hi =>
    by_cases hd : limit < digitsValue digits
    case pos =>
      obtain ⟨p, b, q, he, hw, hx⟩ := hi hd
      exact ⟨p, b, q ++ [c], by simp [he], hw, hx⟩
    case neg => exact ⟨digits, c, [], rfl, Nat.le_of_not_lt hd, h⟩

structure Numeral (digits : Bytes) : Prop where
  digit    : ∀ b ∈ digits, isDigit b
  nonempty : digits ≠ []
  leading  : digits.head? ≠ some '0'.toUInt8

namespace Numeral

theorem of_append (h : Numeral (p ++ q)) (hp : p ≠ []) : Numeral p := by
  refine ⟨(List.forall_mem_append.mp h.digit).left, hp, ?_⟩
  cases p
  case nil => contradiction
  case cons => exact h.leading

theorem digitsValue_pos (h : Numeral digits) : 0 < digitsValue digits := by
  cases digits
  case nil => exact absurd rfl h.nonempty
  case cons b digits =>
    have hb := (List.forall_mem_cons.mp h.digit).left
    have hz : b ≠ '0'.toUInt8 := fun he => h.leading (congrArg some he)
    have hp := Bencode.Decoder.digitValue_pos hb hz
    rw [← digitsValue_singleton b] at hp
    exact Nat.lt_of_lt_of_le hp (digitsValue_le_append [b] digits)

theorem ofNat_digitsValue (h : Numeral digits) : ofNat (digitsValue digits) = digits := by
  induction digits using List.reverseRecOn
  case nil => exact absurd rfl h.nonempty
  case append_singleton digits b hi =>
    have hb := h.digit b (by simp)
    by_cases hd : digits = []
    case pos => rw [hd, List.nil_append, digitsValue_singleton, ofNat_digitValue hb]
    case neg =>
      have hn := h.of_append hd
      rw [digitsValue_concat, ofNat_append_digit hn.digitsValue_pos hb, hi hn]

end Numeral
end Bytes

namespace Bencode

open Bytes Decoder

namespace Decoder

theorem length_run_le (d : Decoder) (bs : Bytes) : (d.run bs).2.length ≤ bs.length := by
  induction bs generalizing d
  case nil => exact Nat.le_refl 0
  case cons b bs hi =>
    rw [run_cons, List.length_cons]
    cases d.step b
    case more d => exact Nat.le_succ_of_le (hi d)
    all_goals exact Nat.le_succ _

theorem Progress.length_resume_le (progress : Progress) (bs : Bytes) :
    (progress.resume bs).2.length ≤ bs.length := by
  cases progress
  case more d => exact d.length_run_le bs
  all_goals exact Nat.le_refl _

end Decoder

inductive Number where
  | length
  | integer (negative : Bool)

namespace Number

def lead : Number → Bytes
  | length        => []
  | integer false => ['i'.toUInt8]
  | integer true  => ['i'.toUInt8, '-'.toUInt8]

def terminator : Number → UInt8
  | length    => ':'.toUInt8
  | integer _ => 'e'.toUInt8

-- The largest value that the digits may have. As no word on the way is larger, signed words would do as well
-- for lengths and for integers without a sign.
def limit : Number → Nat
  | length        => 2 ^ 31 - 1
  | integer false => 2 ^ 63 - 1
  | integer true  => 2 ^ 63

def limitWord : Number → UInt64
  | length           => maxLength
  | integer negative => maxMagnitude negative

def expecting : Number → UInt64 → Expecting
  | length, n           => .length n
  | integer negative, n => .digits negative n

-- `number.Completes frames n progress`: a number with the value `n` has been read, and it counts as exactly
-- that: as many bytes are still to come, or the integer with that magnitude is complete.
inductive Completes (frames : List Frame) : Number → Nat → Progress → Prop
  | length  : Completes frames length (left + 1) (.more ⟨frames, .content left []⟩)
  | integer : (m : Int64).toInt = (if negative then -(n : Int) else n) →
    Completes frames (integer negative) n (supply frames (.integer m))

theorem toNat_limitWord (number : Number) : number.limitWord.toNat = number.limit := by
  cases number
  case length => rfl
  case integer negative => cases negative <;> rfl

theorem nine_le_limitWord (number : Number) : 9 ≤ number.limitWord.toNat := by
  cases number
  case length => decide
  case integer negative => exact nine_le_maxMagnitude negative

variable {number : Number} (frames : List Frame) {digits : Bytes} {n : UInt64} {b : UInt8}

theorem toNat_ofNat_of_le_limit {k : Nat} (h : k ≤ number.limit) : (UInt64.ofNat k).toNat = k := by
  rw [← toNat_limitWord] at h
  exact toNat_ofNat_of_le h

theorem run_numeral (h : Numeral digits) (hl : digitsValue digits ≤ number.limit) (rest : Bytes) :
    Decoder.run ⟨frames, .value⟩ (number.lead ++ (digits ++ rest)) =
      Decoder.run ⟨frames, number.expecting (UInt64.ofNat (digitsValue digits))⟩ rest := by
  have hp := h.digitsValue_pos
  rw [← toNat_limitWord] at hl
  rw [← h.ofNat_digitsValue, digitsValue_ofNat]
  cases number
  case length => exact run_length hp hl
  case integer negative =>
    cases negative
    case false => exact (run_cons ..).trans (run_digits hp hl)
    case true =>
      rw [lead, List.cons_append, List.singleton_append, run_cons]
      change Decoder.run ⟨frames, .sign⟩ _ = _
      exact (run_cons ..).trans (run_negative_digits hp hl)

theorem step_terminator (hp : 0 < n.toNat) (hl : n.toNat ≤ number.limit) :
    number.Completes frames n.toNat (Decoder.step ⟨frames, number.expecting n⟩ number.terminator) := by
  cases number
  case length =>
    obtain ⟨left, hn⟩ := Nat.exists_eq_add_one_of_ne_zero (Nat.ne_of_gt hp)
    have hs : Decoder.step ⟨frames, .length n⟩ ':'.toUInt8 = .more ⟨frames, .content (n.toNat - 1) []⟩ := rfl
    rw [expecting, terminator, hs, hn]
    exact .length
  case integer negative =>
    rw [← toNat_limitWord] at hl
    exact .integer (toInt_signed hl)

theorem step_exceeding (hb : isDigit b) (hx : number.limit < n.toNat * 10 + digitValue b) :
    Decoder.step ⟨frames, number.expecting n⟩ b = .failed (.unexpectedByte b) := by
  have ha : appendDigit? number.limitWord n b = none := by
    rw [Option.eq_none_iff_forall_ne_some]
    intro m hm
    have hle := ((appendDigit?_eq_some_iff number.nine_le_limitWord hb).mp hm).left
    rw [toNat_limitWord] at hle
    omega
  have hne {c : UInt8} := ne_of_isDigit (c := c) hb
  cases number
  all_goals
    rw [limitWord] at ha
    simp (disch := decide) only [expecting, step, hne, hb, ha, if_true, if_false]

theorem exists_exact {p q : Bytes} (h : Numeral (p ++ b :: q)) (hp : p ≠ [])
    (hl : digitsValue p ≤ number.limit) :
    ∃ n, Decoder.run ⟨frames, .value⟩ (number.lead ++ p) = (.more ⟨frames, number.expecting n⟩, []) ∧
      n.toNat = digitsValue p ∧ (b - '0'.toUInt8).toUInt64.toNat = digitValue b ∧
      Exact number.limitWord n (b - '0'.toUInt8).toUInt64 := by
  have hb := h.digit b (by simp)
  have hr := run_numeral frames (h.of_append hp) hl []
  rw [List.append_nil] at hr
  refine ⟨_, hr, toNat_ofNat_of_le_limit hl, toNat_sub_digit hb, ?_⟩
  exact exact_of_isDigit number.nine_le_limitWord hb _

theorem exists_completes (h : Numeral digits) (hl : digitsValue digits ≤ number.limit) (rest : Bytes) :
    ∃ progress, number.Completes frames (digitsValue digits) progress ∧
      Decoder.run ⟨frames, .value⟩ (number.lead ++ (digits ++ number.terminator :: rest)) =
        progress.resume rest := by
  have hn := toNat_ofNat_of_le_limit hl
  have hp := h.digitsValue_pos
  have hc := step_terminator frames (hn.symm ▸ hp) (hn.symm ▸ hl)
  rw [hn] at hc
  exact ⟨_, hc, by rw [run_numeral frames h hl, run_cons]⟩

theorem exists_refused (h : Numeral digits) (hx : number.limit < digitsValue digits) (rest : Bytes) :
    ∃ p b q, digits = p ++ b :: q ∧ (∀ r, r <+: p → digitsValue r ≤ number.limit) ∧
      number.limit < digitsValue (p ++ [b]) ∧
      Decoder.run ⟨frames, .value⟩ (number.lead ++ (digits ++ number.terminator :: rest)) =
        (.failed (.unexpectedByte b), q ++ number.terminator :: rest) := by
  obtain ⟨p, b, q, rfl, hl, hx⟩ := exists_exceeding hx
  refine ⟨p, b, q, rfl, ?first, hx, ?run⟩
  case first =>
    rintro r ⟨t, rfl⟩
    exact Nat.le_trans (digitsValue_le_append r t) hl
  case run =>
    have hb := h.digit b (by simp)
    have hp : p ≠ [] := by
      rintro rfl
      have := digitValue_lt hb
      have := number.nine_le_limitWord
      rw [toNat_limitWord] at this
      rw [List.nil_append, digitsValue_singleton] at hx
      omega
    rw [digitsValue_concat, ← toNat_ofNat_of_le_limit hl] at hx
    rw [List.append_assoc, run_numeral frames (h.of_append hp) hl, List.cons_append, run_cons,
      step_exceeding frames hb hx]
    rfl

theorem read_up_to_limit (number : Number) (frames : List Frame) {digits : Bytes} (h : Numeral digits)
    (rest : Bytes) :
    (∀ p b q, digits = p ++ b :: q → p ≠ [] → digitsValue p ≤ number.limit →
      ∃ n, Decoder.run ⟨frames, .value⟩ (number.lead ++ p) = (.more ⟨frames, number.expecting n⟩, []) ∧
        n.toNat = digitsValue p ∧ (b - '0'.toUInt8).toUInt64.toNat = digitValue b ∧
        Exact number.limitWord n (b - '0'.toUInt8).toUInt64) ∧
    ((∃ progress, number.Completes frames (digitsValue digits) progress ∧
        Decoder.run ⟨frames, .value⟩ (number.lead ++ (digits ++ number.terminator :: rest)) =
          progress.resume rest) ↔
      digitsValue digits ≤ number.limit) ∧
    (number.limit < digitsValue digits → ∃ p b q, digits = p ++ b :: q ∧
      (∀ r, r <+: p → digitsValue r ≤ number.limit) ∧ number.limit < digitsValue (p ++ [b]) ∧
      Decoder.run ⟨frames, .value⟩ (number.lead ++ (digits ++ number.terminator :: rest)) =
        (.failed (.unexpectedByte b), q ++ number.terminator :: rest)) := by
  refine ⟨?words, ⟨?within, fun hl => exists_completes frames h hl rest⟩,
    fun hx => exists_refused frames h hx rest⟩
  case words =>
    rintro p b q rfl hp hl
    exact exists_exact frames h hp hl
  case within =>
    -- A refused number leaves its terminator unread, and a complete one does not.
    rintro ⟨progress, _, hr⟩
    apply Nat.le_of_not_lt
    intro hx
    obtain ⟨p, b, q, -, -, -, hf⟩ := exists_refused frames h hx rest
    have hle := progress.length_resume_le rest
    rw [← hr, hf, List.length_append, List.length_cons] at hle
    omega

-- The largest magnitude after a sign, which is one too many without one, and a length with a digit too many.
theorem read_up_to_limit_at_bounds :
    let magnitude : Bytes := ofString "9223372036854775808"
    let length : Bytes := ofString "21474836470"
    Numeral magnitude ∧ digitsValue magnitude = 2 ^ 63 ∧ Numeral length ∧
    (∃ m : Int64, m.toInt = -(2 ^ 63 : Nat) ∧
      decode (ofString "i-9223372036854775808e0:") = (.ok (.integer m), ofString "0:")) ∧
    (∃ p b q, magnitude = p ++ b :: q ∧ digitsValue p ≤ 2 ^ 63 - 1 ∧ 2 ^ 63 - 1 < digitsValue (p ++ [b]) ∧
      decode (ofString "i9223372036854775808e") = (.error (.unexpectedByte b), q ++ ofString "e")) ∧
    ∃ p b q, length = p ++ b :: q ∧ digitsValue p ≤ 2 ^ 31 - 1 ∧ 2 ^ 31 - 1 < digitsValue (p ++ [b]) ∧
      decode (ofString "21474836470:") = (.error (.unexpectedByte b), q ++ ofString ":") := by
  intro magnitude length
  have hm : Numeral magnitude := ⟨List.all_eq_true.mp (by decide), by decide, by decide⟩
  have hl : Numeral length := ⟨List.all_eq_true.mp (by decide), by decide, by decide⟩
  refine ⟨hm, by decide, hl, ?negative, ?positive, ?length⟩
  case negative =>
    have hread := read_up_to_limit (.integer true) [] hm (ofString "0:")
    obtain ⟨_, ⟨⟩, hr⟩ := hread.right.left.mpr (by decide)
    case integer m hv =>
      have hi : Decoder.run {} (ofString "i-9223372036854775808e0:") =
        (.done (.integer m), ofString "0:") := hr
      exact ⟨m, hv, by rw [decode, hi]⟩
  case positive =>
    obtain ⟨p, b, q, hd, hw, hx, hr⟩ := (read_up_to_limit (.integer false) [] hm []).right.right (by decide)
    have hi : Decoder.run {} (ofString "i9223372036854775808e") =
      (.failed (.unexpectedByte b), q ++ ofString "e") := hr
    exact ⟨p, b, q, hd, hw p (List.prefix_refl p), hx, by rw [decode, hi]⟩
  case length =>
    obtain ⟨p, b, q, hd, hw, hx, hr⟩ := (read_up_to_limit .length [] hl []).right.right (by decide)
    have hi : Decoder.run {} (ofString "21474836470:") =
      (.failed (.unexpectedByte b), q ++ ofString ":") := hr
    exact ⟨p, b, q, hd, hw p (List.prefix_refl p), hx, by rw [decode, hi]⟩

end Number

end Bencode
end TapeShell
