import TapeShell.Proofs.Text.Utf8
import TapeShell.Text.Quoted

namespace TapeShell

namespace Bytes

theorem forall_mem_toDigits {base : Nat} (hb : 1 < base) {P : UInt8 → Prop}
    (h : ∀ d < base, P d.digitChar.toUInt8) (n : Nat) :
    ∀ b ∈ (Nat.toDigits base n).map Char.toUInt8, P b := by
  induction n using Nat.strongRecOn
  case ind n hi =>
    by_cases hn : n < base
    case pos =>
      rw [Nat.toDigits_of_lt_base hn, List.map_singleton, List.forall_mem_singleton]
      exact h n hn
    case neg =>
      rw [Nat.toDigits_of_base_le hb (by omega), List.map_append, List.map_singleton,
        List.forall_mem_append, List.forall_mem_singleton]
      have hm := Nat.mod_lt n (Nat.lt_of_succ_lt hb)
      exact ⟨hi (n / base) (Nat.div_lt_self (by omega) hb), h _ hm⟩

theorem forall_mem_ofHex {P : UInt8 → Prop} (h : ∀ d < 16, P d.digitChar.toUInt8) (width n : Nat) :
    ∀ b ∈ ofHex width n, P b := by
  rw [ofHex, padLeft, List.forall_mem_append]
  refine ⟨?_, forall_mem_toDigits (by decide) h n⟩
  intro b hb
  rw [List.eq_of_mem_replicate hb]
  exact h 0 (by decide)

theorem isUtf8_ofNat (n : Nat) : isUtf8 (ofNat n) :=
  isUtf8_of_ascii (forall_mem_toDigits (by decide) (by decide) n)

theorem isUtf8_ofHex (width n : Nat) : isUtf8 (ofHex width n) :=
  isUtf8_of_ascii (forall_mem_ofHex (by decide) width n)

end Bytes

namespace Text

open Bytes

theorem controlLetter_lt {c letter : Char} (h : controlLetter? c = some letter) :
    letter.toUInt8 < 128 := by
  unfold controlLetter? at h
  split at h <;> cases h
  all_goals decide

variable (printable : Char → Bool)

theorem isUtf8_escapeChar (quote c : Char) : isUtf8 (escapeChar printable quote c) := by
  unfold escapeChar
  repeat' split
  case isTrue => exact isUtf8_append (p := ['\\'.toUInt8]) (by decide) (isUtf8_ofChar c)
  case isTrue => exact isUtf8_ofChar c
  case h_1 letter h =>
    apply isUtf8_of_ascii
    simp only [List.forall_mem_cons]
    exact ⟨by decide, controlLetter_lt h, nofun⟩
  all_goals exact isUtf8_append (isUtf8_ofString _) (isUtf8_ofHex ..)

theorem isUtf8_escapeRune (quote : Char) (r : Rune) : isUtf8 (escapeRune printable quote r) := by
  unfold escapeRune
  split
  case isTrue => exact isUtf8_flatMap fun _ _ => isUtf8_append (isUtf8_ofString _) (isUtf8_ofHex ..)
  case isFalse => exact isUtf8_escapeChar printable quote r.char

theorem isUtf8_quoteWith (bs : Bytes) : isUtf8 (quoteWith printable bs) := by
  have hr := isUtf8_flatMap fun r (_ : r ∈ bs.runes) => isUtf8_escapeRune printable '"' r
  exact isUtf8_append (isUtf8_append (p := ['"'.toUInt8]) (by decide) hr) (by decide)

theorem isUtf8_escapeWith (bs : Bytes) : isUtf8 (escapeWith printable bs) := by
  refine isUtf8_flatMap fun r _ => ?_
  split
  case isTrue => exact isUtf8_ofString _
  case isFalse => exact isUtf8_escapeRune printable '"' r

end Text
end TapeShell
