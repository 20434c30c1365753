import TapeShell.Text.Decimal

namespace TapeShell.Bytes

theorem isDigit_iff {b : UInt8} : isDigit b ↔ 48 ≤ b.toNat ∧ b.toNat ≤ 57 := by
  simp only [isDigit, Bool.and_eq_true, decide_eq_true_eq, UInt8.le_iff_toNat_le]
  rfl

theorem digitValue_eq (b : UInt8) : digitValue b = b.toNat - 48 :=
  rfl

theorem digitValue_lt {b : UInt8} (h : isDigit b) : digitValue b < 10 := by
  have := isDigit_iff.mp h
  rw [digitValue_eq]
  omega

theorem toNat_digitChar : ∀ d < 10, d.digitChar.toUInt8.toNat = 48 + d := by
  decide

theorem toUInt8_digitChar {b : UInt8} (h : isDigit b) : (digitValue b).digitChar.toUInt8 = b := by
  have := isDigit_iff.mp h
  apply UInt8.toNat_inj.mp
  rw [toNat_digitChar _ (digitValue_lt h), digitValue_eq]
  omega

theorem exists_digitValue {d : Nat} (h : d < 10) : ∃ b, isDigit b ∧ digitValue b = d := by
  refine ⟨d.digitChar.toUInt8, ?_⟩
  rw [isDigit_iff, digitValue_eq, toNat_digitChar d h]
  omega

theorem ofNat_digitValue {b : UInt8} (h : isDigit b) : ofNat (digitValue b) = [b] := by
  rw [ofNat, Nat.toDigits_of_lt_base (digitValue_lt h), List.map_singleton, toUInt8_digitChar h]

theorem ofNat_append_digit {n : Nat} {b : UInt8} (hn : 0 < n) (h : isDigit b) :
    ofNat (n * 10 + digitValue b) = ofNat n ++ [b] := by
  have hd := digitValue_lt h
  rw [ofNat, Nat.toDigits_of_base_le (by omega) (by omega), List.map_append, List.map_singleton, ofNat]
  rw [show (n * 10 + digitValue b) / 10 = n by omega,
    show (n * 10 + digitValue b) % 10 = digitValue b by omega, toUInt8_digitChar h]

-- Numbers as they are written: a digit, or a digit after a number that is not zero.
theorem digit_induction {motive : Nat → Prop} (digit : ∀ b, isDigit b → motive (digitValue b))
    (append : ∀ n b, 0 < n → isDigit b → motive n → motive (n * 10 + digitValue b)) (n : Nat) :
    motive n := by
  induction n using Nat.strongRecOn
  case ind n hi =>
    have ⟨b, hb, hd⟩ := exists_digitValue (Nat.mod_lt n (by omega : 0 < 10))
    by_cases h : n < 10
    case pos =>
      rw [Nat.mod_eq_of_lt h] at hd
      exact hd ▸ digit b hb
    case neg =>
      have hn : n / 10 * 10 + digitValue b = n := by omega
      exact hn ▸ append (n / 10) b (by omega) hb (hi (n / 10) (by omega))

theorem ofNat_ne_nil (n : Nat) : ofNat n ≠ [] := by
  induction n using digit_induction
  case digit b hb => simp [ofNat_digitValue hb]
  case append n b hn hb _ => simp [ofNat_append_digit hn hb]

theorem isDigit_of_mem_ofNat {n : Nat} : ∀ b ∈ ofNat n, isDigit b := by
  induction n using digit_induction
  case digit b hb => rwa [ofNat_digitValue hb, List.forall_mem_singleton]
  case append n b hn hb ih =>
    rw [ofNat_append_digit hn hb, List.forall_mem_append, List.forall_mem_singleton]
    exact ⟨ih, hb⟩

theorem digitsValue_singleton (b : UInt8) : digitsValue [b] = digitValue b :=
  Nat.zero_add _

theorem digitsValue_concat (digits : Bytes) (b : UInt8) :
    digitsValue (digits ++ [b]) = digitsValue digits * 10 + digitValue b := by
  rw [digitsValue, List.foldl_append]
  rfl

theorem digitsValue_ofNat (n : Nat) : digitsValue (ofNat n) = n := by
  induction n using digit_induction
  case digit b hb => rw [ofNat_digitValue hb, digitsValue_singleton]
  case append n b hn hb ih => rw [ofNat_append_digit hn hb, digitsValue_concat, ih]

theorem ofNat_inj {n m : Nat} (h : ofNat n = ofNat m) : n = m := by
  rw [← digitsValue_ofNat n, h, digitsValue_ofNat]

theorem ofNat_append_inj {n m : Nat} {b : UInt8} {r s : Bytes} (hb : isDigit b = false)
    (h : ofNat n ++ b :: r = ofNat m ++ b :: s) : n = m ∧ r = s := by
  have hdigits (k t) : (ofNat k ++ b :: t).takeWhile isDigit = ofNat k := by
    rw [List.takeWhile_append_of_pos isDigit_of_mem_ofNat,
      List.takeWhile_cons_of_neg (by simp [hb]), List.append_nil]
  have hn : n = m := ofNat_inj (by rw [← hdigits n r, h, hdigits])
  subst hn
  exact ⟨rfl, (List.cons.inj (List.append_cancel_left h)).right⟩

end TapeShell.Bytes
