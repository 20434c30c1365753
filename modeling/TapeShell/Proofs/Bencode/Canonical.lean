import Mathlib.Algebra.Group.Nat.Defs
import TapeShell.Bencode.Decoder
import TapeShell.Proofs.Text.Decimal

namespace TapeShell.Bencode

mutual

-- No part of the value is absent, and all byte strings in it have lengths that can be read.
def Value.Fits : Value → Prop
  | .bytes content => content.length ≤ 2 ^ 31 - 1
  | .integer _ => True
  | .list items => ItemsFit items
  | .dict entries => EntriesFit entries
  | .absent => False

def ItemsFit : List Value → Prop
  | [] => True
  | v :: vs => v.Fits ∧ ItemsFit vs

def EntriesFit : List (Bytes × Value) → Prop
  | [] => True
  | (key, v) :: entries => key.length ≤ 2 ^ 31 - 1 ∧ v.Fits ∧ EntriesFit entries

end

theorem itemsFit_append {vs us : List Value} :
    ItemsFit (vs ++ us) ↔ ItemsFit vs ∧ ItemsFit us := by
  induction vs
  case nil => simp [ItemsFit]
  case cons v vs hi => simp [ItemsFit, hi, and_assoc]

theorem entriesFit_append {es fs : List (Bytes × Value)} :
    EntriesFit (es ++ fs) ↔ EntriesFit es ∧ EntriesFit fs := by
  induction es
  case nil => simp [EntriesFit]
  case cons e es hi => simp [EntriesFit, hi, and_assoc]

theorem encodeItems_append (vs us : List Value) :
    encodeItems (vs ++ us) = encodeItems vs ++ encodeItems us := by
  induction vs <;> simp_all [encodeItems]

theorem encodeEntries_append (es fs : List (Bytes × Value)) :
    encodeEntries (es ++ fs) = encodeEntries es ++ encodeEntries fs := by
  induction es
  case nil => rfl
  case cons e es hi => simp [encodeEntries, hi]

namespace Decoder

def Progress.resume : Progress → Bytes → Progress × Bytes
  | .more d, bs => d.run bs
  | .done v, bs => (.done v, bs)
  | .failed e, bs => (.failed e, bs)

@[simp]
theorem Progress.resume_more (d : Decoder) (bs : Bytes) : (Progress.more d).resume bs = d.run bs :=
  rfl

theorem run_cons (d : Decoder) (b : UInt8) (bs : Bytes) : d.run (b :: bs) = (d.step b).resume bs := by
  rw [run]
  cases d.step b <;> rfl

section Digits

theorem toNat_sub_digit {b : UInt8} (h : Bytes.isDigit b) :
    (b - '0'.toUInt8).toUInt64.toNat = Bytes.digitValue b := by
  have := Bytes.isDigit_iff.mp h
  have hz : '0'.toUInt8.toNat = 48 := rfl
  rw [UInt8.toNat_toUInt64, UInt8.toNat_sub_of_le _ _ (UInt8.le_iff_toNat_le.mpr (by omega)), hz,
    Bytes.digitValue_eq]

-- The words that a digit is appended with are the numbers that they stand for: none of them wraps around.
structure Exact (limit n digit : UInt64) : Prop where
  margin  : (limit - digit).toNat + digit.toNat = limit.toNat
  check   : (limit - digit) / 10 < n ↔ limit.toNat < n.toNat * 10 + digit.toNat
  product : ¬(limit - digit) / 10 < n → (n * 10).toNat = n.toNat * 10
  sum     : ¬(limit - digit) / 10 < n → (n * 10 + digit).toNat = n.toNat * 10 + digit.toNat

theorem exact_of_digit {limit digit : UInt64} (hl : 9 ≤ limit.toNat) (hd : digit.toNat < 10) (n : UInt64) :
    Exact limit n digit := by
  have hm : (limit - digit).toNat = limit.toNat - digit.toNat :=
    UInt64.toNat_sub_of_le _ _ (UInt64.le_iff_toNat_le.mpr (by omega))
  have hten : (10 : UInt64).toNat = 10 := rfl
  have hc : (limit - digit) / 10 < n ↔ limit.toNat < n.toNat * 10 + digit.toNat := by
    rw [UInt64.lt_iff_toNat_lt, UInt64.toNat_div, hm, hten]
    omega
  have hb := limit.toNat_lt
  have hp (h : ¬(limit - digit) / 10 < n) : (n * 10).toNat = n.toNat * 10 := by
    have := mt hc.mpr h
    rw [UInt64.toNat_mul, hten]
    omega
  refine ⟨by omega, hc, hp, fun h => ?_⟩
  have := mt hc.mpr h
  rw [UInt64.toNat_add, hp h]
  omega

theorem exact_of_isDigit {limit : UInt64} {b : UInt8} (hl : 9 ≤ limit.toNat) (h : Bytes.isDigit b)
    (n : UInt64) : Exact limit n (b - '0'.toUInt8).toUInt64 :=
  exact_of_digit hl (toNat_sub_digit h ▸ Bytes.digitValue_lt h) n

theorem appendDigit?_eq_some_iff {limit n m : UInt64} {b : UInt8} (hl : 9 ≤ limit.toNat)
    (h : Bytes.isDigit b) :
    appendDigit? limit n b = some m ↔
      n.toNat * 10 + Bytes.digitValue b ≤ limit.toNat ∧ m.toNat = n.toNat * 10 + Bytes.digitValue b := by
  have he := exact_of_isDigit hl h n
  have hd := toNat_sub_digit h
  simp only [appendDigit?, GT.gt]
  split
  case isTrue hn =>
    have := he.check.mp hn
    constructor
    case mp => nofun
    case mpr =>
      intro ⟨_, _⟩
      omega
  case isFalse hn =>
    have := mt he.check.mpr hn
    rw [Option.some.injEq, ← UInt64.toNat_inj, he.sum hn]
    omega

theorem toNat_ofNat_of_le {limit : UInt64} {n : Nat} (h : n ≤ limit.toNat) :
    (UInt64.ofNat n).toNat = n := by
  have := limit.toNat_lt
  rw [UInt64.toNat_ofNat']
  omega

theorem ne_of_isDigit {b c : UInt8} (h : Bytes.isDigit b) (hc : Bytes.isDigit c = false) : b ≠ c := by
  rintro rfl
  simp [hc] at h

-- Lengths and integers are read in the same way: a first digit that is not zero, and then more of
-- them up to a limit.
theorem run_ofNat {start : Decoder} {acc : UInt64 → Decoder} {limit : UInt64} (hl : 9 ≤ limit.toNat)
    (hs : ∀ b, Bytes.isDigit b → b ≠ '0'.toUInt8 →
      start.step b = .more (acc (b - '0'.toUInt8).toUInt64))
    (ha : ∀ b n m, Bytes.isDigit b → appendDigit? limit n b = some m →
      (acc n).step b = .more (acc m))
    {n : Nat} (hp : 0 < n) (hn : n ≤ limit.toNat) (rest : Bytes) :
    start.run (Bytes.ofNat n ++ rest) = (acc (UInt64.ofNat n)).run rest := by
  induction n using Bytes.digit_induction generalizing rest
  case digit b hb =>
    have hz : b ≠ '0'.toUInt8 := by
      rintro rfl
      exact absurd hp (by decide)
    have hd : (b - '0'.toUInt8).toUInt64 = UInt64.ofNat (Bytes.digitValue b) := by
      rw [← UInt64.toNat_inj, toNat_sub_digit hb, toNat_ofNat_of_le hn]
    rw [Bytes.ofNat_digitValue hb, List.singleton_append, run_cons, hs b hb hz, hd]
    rfl
  case append n b hpos hb hi =>
    have hq : n ≤ limit.toNat := by omega
    have hm : appendDigit? limit (UInt64.ofNat n) b =
        some (UInt64.ofNat (n * 10 + Bytes.digitValue b)) := by
      rw [appendDigit?_eq_some_iff hl hb, toNat_ofNat_of_le hq, toNat_ofNat_of_le hn]
      exact ⟨hn, rfl⟩
    have hr := hi hpos hq (b :: rest)
    rw [run_cons, ha b _ _ hb hm] at hr
    rw [Bytes.ofNat_append_digit hpos hb, List.append_assoc, List.singleton_append, hr]
    rfl

theorem toInt_signed {negative : Bool} {n : UInt64} (h : n.toNat ≤ (maxMagnitude negative).toNat) :
    (signed negative n).toInt = if negative then -(n.toNat : Int) else n.toNat := by
  have hn : n.toInt64 = Int64.ofNat n.toNat := Int64.toBitVec.inj (by simp)
  cases negative
  case true =>
    replace h : n.toNat ≤ 2 ^ 63 := h
    simp only [signed, if_true]
    rw [hn, Int64.toInt_neg_ofNat_of_le h]
  case false =>
    replace h : n.toNat ≤ 2 ^ 63 - 1 := h
    simp only [signed, Bool.false_eq_true, if_false]
    rw [hn, Int64.toInt_ofNat_of_lt (by omega)]

theorem toInt_signed_ofNat {negative : Bool} {n : Nat} (h : n ≤ (maxMagnitude negative).toNat) :
    (signed negative (UInt64.ofNat n)).toInt = if negative then -(n : Int) else n := by
  have hn := toNat_ofNat_of_le h
  rw [toInt_signed (hn.symm ▸ h), hn]

theorem nine_le_maxMagnitude (negative : Bool) : 9 ≤ (maxMagnitude negative).toNat := by
  cases negative <;> decide

end Digits

section Completeness

variable {frames : List Frame} {rest : Bytes}

theorem step_value_digit {b : UInt8} (h : Bytes.isDigit b) (hz : b ≠ '0'.toUInt8) :
    Decoder.step ⟨frames, .value⟩ b = .more ⟨frames, .length (b - '0'.toUInt8).toUInt64⟩ := by
  have hne {c : UInt8} := ne_of_isDigit (c := c) h
  simp (disch := decide) only [step, hne, h, hz, if_true, if_false]

theorem step_length_digit {b : UInt8} {n m : UInt64} (h : Bytes.isDigit b)
    (hm : appendDigit? maxLength n b = some m) :
    Decoder.step ⟨frames, .length n⟩ b = .more ⟨frames, .length m⟩ := by
  have hne {c : UInt8} := ne_of_isDigit (c := c) h
  simp (disch := decide) only [step, hne, h, hm, if_true, if_false]

theorem step_sign_digit {b : UInt8} (h : Bytes.isDigit b) (hz : b ≠ '0'.toUInt8) :
    Decoder.step ⟨frames, .sign⟩ b = .more ⟨frames, .digits false (b - '0'.toUInt8).toUInt64⟩ := by
  have hne {c : UInt8} := ne_of_isDigit (c := c) h
  simp (disch := decide) only [step, hne, h, hz, if_true, if_false]

theorem step_magnitude_digit {b : UInt8} (h : Bytes.isDigit b) (hz : b ≠ '0'.toUInt8) :
    Decoder.step ⟨frames, .magnitude⟩ b = .more ⟨frames, .digits true (b - '0'.toUInt8).toUInt64⟩ :=
  if_pos ⟨hz, h⟩

theorem step_digits_digit {negative : Bool} {b : UInt8} {n m : UInt64} (h : Bytes.isDigit b)
    (hm : appendDigit? (maxMagnitude negative) n b = some m) :
    Decoder.step ⟨frames, .digits negative n⟩ b = .more ⟨frames, .digits negative m⟩ := by
  have hne {c : UInt8} := ne_of_isDigit (c := c) h
  simp (disch := decide) only [step, hne, h, hm, if_true, if_false]

theorem run_length {n : Nat} (hp : 0 < n) (hn : n ≤ maxLength.toNat) :
    Decoder.run ⟨frames, .value⟩ (Bytes.ofNat n ++ rest) =
      Decoder.run ⟨frames, .length (UInt64.ofNat n)⟩ rest :=
  run_ofNat (by decide) (fun _ => step_value_digit) (fun _ _ _ => step_length_digit) hp hn rest

theorem run_digits {n : Nat} (hp : 0 < n) (hn : n ≤ (maxMagnitude false).toNat) :
    Decoder.run ⟨frames, .sign⟩ (Bytes.ofNat n ++ rest) =
      Decoder.run ⟨frames, .digits false (UInt64.ofNat n)⟩ rest :=
  run_ofNat (by decide) (fun _ => step_sign_digit) (fun _ _ _ => step_digits_digit) hp hn rest

theorem run_negative_digits {n : Nat} (hp : 0 < n) (hn : n ≤ (maxMagnitude true).toNat) :
    Decoder.run ⟨frames, .magnitude⟩ (Bytes.ofNat n ++ rest) =
      Decoder.run ⟨frames, .digits true (UInt64.ofNat n)⟩ rest :=
  run_ofNat (by decide) (fun _ => step_magnitude_digit) (fun _ _ _ => step_digits_digit) hp hn rest

theorem run_content {content : Bytes} {left : Nat} (h : content.length = left + 1) (read : Bytes) :
    Decoder.run ⟨frames, .content left read⟩ (content ++ rest) =
      (supply frames (.bytes (read.reverse ++ content))).resume rest := by
  induction content generalizing left read
  case nil => contradiction
  case cons b content hi =>
    rw [List.cons_append, run_cons]
    cases left
    case zero =>
      have := List.length_eq_zero_iff.mp (Nat.succ.inj h)
      simp [step, this]
    case succ left =>
      have := hi (Nat.succ.inj h) (b :: read)
      simpa [step] using this

theorem run_encodeBytes {content : Bytes} (h : content.length ≤ 2 ^ 31 - 1) :
    Decoder.run ⟨frames, .value⟩ (encodeBytes content ++ rest) =
      (supply frames (.bytes content)).resume rest := by
  by_cases hc : content = []
  case pos =>
    have he : encodeBytes [] = ['0'.toUInt8, ':'.toUInt8] := rfl
    rw [hc, he, List.cons_append, List.singleton_append, run_cons]
    exact run_cons ..
  case neg =>
    have hp := List.length_pos_iff.mpr hc
    have hl : content.length ≤ maxLength.toNat := h
    rw [encodeBytes, List.append_assoc, List.cons_append, run_length hp hl, run_cons]
    simp only [step, if_true, Progress.resume_more]
    rw [toNat_ofNat_of_le hl, run_content (by omega), List.reverse_nil, List.nil_append]

theorem run_digits_end {negative : Bool} {n : UInt64} :
    Decoder.run ⟨frames, .digits negative n⟩ ('e'.toUInt8 :: rest) =
      (supply frames (.integer (signed negative n))).resume rest :=
  run_cons ..

theorem run_encodeInteger (n : Int64) :
    Decoder.run ⟨frames, .value⟩ (encodeInteger n ++ rest) =
      (supply frames (.integer n)).resume rest := by
  have hl := n.le_toInt
  have hu := n.toInt_lt
  rw [encodeInteger, List.append_assoc, List.cons_append, List.singleton_append, run_cons]
  change Decoder.run ⟨frames, .sign⟩ _ = _
  cases hn : n.toInt
  case negSucc k =>
    have hk : k + 1 ≤ (maxMagnitude true).toNat := by
      change k + 1 ≤ 2 ^ 63
      omega
    have hs : signed true (UInt64.ofNat (k + 1)) = n := by
      rw [← Int64.toInt_inj, toInt_signed_ofNat hk, hn]
      rfl
    rw [Bytes.ofInt, List.cons_append, run_cons]
    change Decoder.run ⟨frames, .magnitude⟩ _ = _
    rw [run_negative_digits (by omega) hk, run_digits_end, hs]
  case ofNat k =>
    have hk : k ≤ (maxMagnitude false).toNat := by
      change k ≤ 2 ^ 63 - 1
      rw [hn, Int.ofNat_eq_natCast] at hu
      omega
    have hs : signed false (UInt64.ofNat k) = n := by
      rw [← Int64.toInt_inj, toInt_signed_ofNat hk, hn]
      rfl
    rw [Bytes.ofInt]
    cases k
    case zero =>
      rw [← hs, show Bytes.ofNat 0 = ['0'.toUInt8] from rfl, List.singleton_append, run_cons]
      exact run_cons ..
    case succ => rw [run_digits (by omega) hk, run_digits_end, hs]

mutual

theorem run_encode (frames : List Frame) (rest : Bytes) :
    (v : Value) → v.Fits →
      Decoder.run ⟨frames, .value⟩ (v.encode ++ rest) = (supply frames v).resume rest
  | .bytes _, h => run_encodeBytes h
  | .integer n, _ => run_encodeInteger n
  | .list items, h => by
    rw [Value.encode, encodeList, List.append_assoc, List.cons_append, run_cons]
    change Decoder.run ⟨.list [] :: frames, .value⟩ _ = _
    rw [run_encodeItems frames [] _ items h, List.append_nil, List.singleton_append, run_cons]
    change (supply frames (.list items.reverse.reverse)).resume rest = _
    rw [List.reverse_reverse]
  | .dict entries, h => by
    rw [Value.encode, List.append_assoc, List.cons_append, run_cons]
    change Decoder.run ⟨.dict [] :: frames, .value⟩ _ = _
    rw [run_encodeEntries frames [] _ entries h, List.append_nil, List.singleton_append, run_cons]
    change (supply frames (.dict entries.reverse.reverse)).resume rest = _
    rw [List.reverse_reverse]

theorem run_encodeItems (frames : List Frame) (items : List Value) (rest : Bytes) :
    (vs : List Value) → ItemsFit vs →
      Decoder.run ⟨.list items :: frames, .value⟩ ((encodeItems vs).flatten ++ rest) =
        Decoder.run ⟨.list (vs.reverse ++ items) :: frames, .value⟩ rest
  | [], _ => rfl
  | v :: vs, h => by
    rw [encodeItems, List.flatten_cons, List.append_assoc, run_encode _ _ v h.left, supply,
      Progress.resume_more, run_encodeItems frames _ rest vs h.right]
    simp

theorem run_encodeEntries (frames : List Frame) (entries : List (Bytes × Value)) (rest : Bytes) :
    (es : List (Bytes × Value)) → EntriesFit es →
      Decoder.run ⟨.dict entries :: frames, .value⟩ (encodeEntries es ++ rest) =
        Decoder.run ⟨.dict (es.reverse ++ entries) :: frames, .value⟩ rest
  | [], _ => rfl
  | (key, v) :: es, h => by
    rw [encodeEntries, List.append_assoc, List.append_assoc, run_encodeBytes h.left, supply,
      Progress.resume_more, run_encode _ _ v h.right.left, supply, Progress.resume_more,
      run_encodeEntries frames _ rest es h.right.right]
    simp

end

end Completeness

end Decoder

def Frame.consumed : Frame → Bytes
  | .list items => 'l'.toUInt8 :: (encodeItems items.reverse).flatten
  | .dict entries => 'd'.toUInt8 :: encodeEntries entries.reverse
  | .entry entries key => 'd'.toUInt8 :: encodeEntries entries.reverse ++ encodeBytes key

def Frame.Fits : Frame → Prop
  | .list items => ItemsFit items.reverse
  | .dict entries => EntriesFit entries.reverse
  | .entry entries key => EntriesFit entries.reverse ∧ key.length ≤ 2 ^ 31 - 1

def Expecting.consumed : Expecting → Bytes
  | .value => []
  | .colon => ['0'.toUInt8]
  | .length n => Bytes.ofNat n.toNat
  | .content left read => Bytes.ofNat (read.length + (left + 1)) ++ ':'.toUInt8 :: read.reverse
  | .sign => ['i'.toUInt8]
  | .magnitude => ['i'.toUInt8, '-'.toUInt8]
  | .zeroEnd => ['i'.toUInt8, '0'.toUInt8]
  | .digits negative n =>
    'i'.toUInt8 :: (if negative then ['-'.toUInt8] else []) ++ Bytes.ofNat n.toNat

def Expecting.Fits : Expecting → Prop
  | .length n => 0 < n.toNat ∧ n.toNat ≤ Decoder.maxLength.toNat
  | .content left read => read.length + (left + 1) ≤ 2 ^ 31 - 1
  | .digits negative n => 0 < n.toNat ∧ n.toNat ≤ (Decoder.maxMagnitude negative).toNat
  | _ => True

namespace Decoder

section Soundness

def consumedFrames : List Frame → Bytes
  | [] => []
  | f :: frames => consumedFrames frames ++ f.consumed

-- As every value has one encoding only, a decoder determines the bytes that lead to it.
structure Reached (d : Decoder) (bs : Bytes) : Prop where
  consumed  : bs = consumedFrames d.frames ++ d.expecting.consumed
  frames    : ∀ f ∈ d.frames, f.Fits
  expecting : d.expecting.Fits

def Progress.Accounts : Progress → Bytes → Prop
  | .more d, bs => d.Reached bs
  | .done v, bs => bs = v.encode ∧ v.Fits
  | .failed _, _ => True

variable {frames : List Frame} {bs : Bytes}

theorem accounts_supply (hf : ∀ f ∈ frames, f.Fits) {v : Value} (hv : v.Fits) :
    (supply frames v).Accounts (consumedFrames frames ++ v.encode) := by
  cases frames
  case nil => exact ⟨rfl, hv⟩
  case cons f frames =>
    have ⟨h, hs⟩ := List.forall_mem_cons.mp hf
    cases f
    case list items =>
      refine ⟨?_, List.forall_mem_cons.mpr ⟨?_, hs⟩, trivial⟩
      · simp [consumedFrames, Frame.consumed, Expecting.consumed, encodeItems_append, encodeItems]
      · rw [Frame.Fits, List.reverse_cons, itemsFit_append]
        exact ⟨h, hv, trivial⟩
    case dict entries =>
      cases v
      case bytes key =>
        refine ⟨?_, List.forall_mem_cons.mpr ⟨⟨h, hv⟩, hs⟩, trivial⟩
        simp [consumedFrames, Frame.consumed, Expecting.consumed, Value.encode]
      all_goals trivial
    case entry entries key =>
      refine ⟨?_, List.forall_mem_cons.mpr ⟨?_, hs⟩, trivial⟩
      · simp [consumedFrames, Frame.consumed, Expecting.consumed, encodeEntries_append, encodeEntries]
      · rw [Frame.Fits, List.reverse_cons, entriesFit_append]
        exact ⟨h.left, h.right, hv, trivial⟩

theorem accounts_close (hf : ∀ f ∈ frames, f.Fits) :
    (close frames).Accounts (consumedFrames frames ++ ['e'.toUInt8]) := by
  cases frames
  case nil => trivial
  case cons f frames =>
    have ⟨h, hs⟩ := List.forall_mem_cons.mp hf
    cases f
    case list items =>
      have := accounts_supply hs (v := .list items.reverse) h
      simpa [close, consumedFrames, Frame.consumed, Value.encode, encodeList] using this
    case dict entries =>
      have := accounts_supply hs (v := .dict entries.reverse) h
      simpa [close, consumedFrames, Frame.consumed, Value.encode] using this
    case entry => trivial

variable {b : UInt8} {expecting : Expecting}

theorem accounts_supply_snoc (hf : ∀ f ∈ frames, f.Fits) {v : Value} (hv : v.Fits)
    (he : v.encode = expecting.consumed ++ [b]) :
    (supply frames v).Accounts (consumedFrames frames ++ expecting.consumed ++ [b]) := by
  rw [List.append_assoc, ← he]
  exact accounts_supply hf hv

theorem reached_snoc (hf : ∀ f ∈ frames, f.Fits) {next : Expecting} (hn : next.Fits)
    (he : next.consumed = expecting.consumed ++ [b]) :
    Reached ⟨frames, next⟩ (consumedFrames frames ++ expecting.consumed ++ [b]) :=
  ⟨by rw [List.append_assoc, ← he], hf, hn⟩

theorem digitValue_pos (h : Bytes.isDigit b) (hz : b ≠ '0'.toUInt8) : 0 < Bytes.digitValue b := by
  have := Bytes.isDigit_iff.mp h
  have : b.toNat ≠ 48 := fun hb => hz (UInt8.toNat_inj.mp hb)
  rw [Bytes.digitValue_eq]
  omega

theorem ofNat_sub_digit (h : Bytes.isDigit b) :
    Bytes.ofNat (b - '0'.toUInt8).toUInt64.toNat = [b] := by
  rw [toNat_sub_digit h, Bytes.ofNat_digitValue h]

theorem first_digit_within {limit : UInt64} (hl : 9 ≤ limit.toNat) (h : Bytes.isDigit b)
    (hz : b ≠ '0'.toUInt8) :
    0 < (b - '0'.toUInt8).toUInt64.toNat ∧ (b - '0'.toUInt8).toUInt64.toNat ≤ limit.toNat := by
  have hp := digitValue_pos h hz
  have hlt := Bytes.digitValue_lt h
  rw [toNat_sub_digit h]
  omega

theorem accounts_step_value (hf : ∀ f ∈ frames, f.Fits) (b : UInt8) :
    (Decoder.step ⟨frames, .value⟩ b).Accounts
      (consumedFrames frames ++ Expecting.value.consumed ++ [b]) := by
  simp only [step]
  repeat' split
  case isTrue hb =>
    rw [hb, Expecting.consumed, List.append_nil]
    exact accounts_close hf
  case isTrue hb => exact reached_snoc hf trivial (hb ▸ rfl)
  case isTrue hb =>
    refine ⟨?_, List.forall_mem_cons.mpr ⟨trivial, hf⟩, trivial⟩
    simp [hb, consumedFrames, Frame.consumed, Expecting.consumed, encodeItems]
  case isTrue hb =>
    refine ⟨?_, List.forall_mem_cons.mpr ⟨trivial, hf⟩, trivial⟩
    simp [hb, consumedFrames, Frame.consumed, Expecting.consumed, encodeEntries]
  case isTrue hb => exact reached_snoc hf trivial (hb ▸ rfl)
  case isTrue hz hd =>
    exact reached_snoc hf (first_digit_within (by decide) hd hz) (ofNat_sub_digit hd)
  case isFalse => trivial

theorem accounts_step_length {n : UInt64} (hf : ∀ f ∈ frames, f.Fits) (hn : (Expecting.length n).Fits)
    (b : UInt8) :
    (Decoder.step ⟨frames, .length n⟩ b).Accounts
      (consumedFrames frames ++ (Expecting.length n).consumed ++ [b]) := by
  have ⟨hp, hl⟩ := hn
  simp only [step]
  repeat' split
  case isTrue hb =>
    have he : 0 + (n.toNat - 1 + 1) = n.toNat := by omega
    refine reached_snoc hf ?_ ?_
    · rw [Expecting.Fits, List.length_nil, he]
      exact hl
    · simp only [Expecting.consumed, List.length_nil, he, hb, List.reverse_nil]
  case h_1 hd _ m hm =>
    have ⟨hl, he⟩ := (appendDigit?_eq_some_iff (by decide) hd).mp hm
    refine reached_snoc hf ⟨by omega, by omega⟩ ?_
    simp only [Expecting.consumed]
    rw [he, Bytes.ofNat_append_digit hp hd]
  all_goals trivial

theorem accounts_step_content {left : Nat} {read : Bytes} (hf : ∀ f ∈ frames, f.Fits)
    (hl : (Expecting.content left read).Fits) (b : UInt8) :
    (Decoder.step ⟨frames, .content left read⟩ b).Accounts
      (consumedFrames frames ++ (Expecting.content left read).consumed ++ [b]) := by
  simp only [Expecting.Fits] at hl
  cases left
  case zero =>
    refine accounts_supply_snoc hf (v := .bytes (b :: read).reverse) ?_ ?_
    · simp only [Value.Fits, List.length_reverse, List.length_cons]
      omega
    · simp [Value.encode, encodeBytes, Expecting.consumed]
  case succ left =>
    have he : read.length + 1 + (left + 1) = read.length + (left + 1 + 1) := by omega
    refine reached_snoc hf ?_ ?_
    · simp only [Expecting.Fits, List.length_cons]
      omega
    · simp [Expecting.consumed, he]

theorem accounts_step_sign (hf : ∀ f ∈ frames, f.Fits) (b : UInt8) :
    (Decoder.step ⟨frames, .sign⟩ b).Accounts
      (consumedFrames frames ++ Expecting.sign.consumed ++ [b]) := by
  simp only [step]
  repeat' split
  case isTrue hb => exact reached_snoc hf trivial (hb ▸ rfl)
  case isTrue hb => exact reached_snoc hf trivial (hb ▸ rfl)
  case isTrue hz hd =>
    refine reached_snoc hf (first_digit_within (by decide) hd hz) ?_
    simp only [Expecting.consumed, ofNat_sub_digit hd]
    rfl
  case isFalse => trivial

theorem accounts_step_magnitude (hf : ∀ f ∈ frames, f.Fits) (b : UInt8) :
    (Decoder.step ⟨frames, .magnitude⟩ b).Accounts
      (consumedFrames frames ++ Expecting.magnitude.consumed ++ [b]) := by
  simp only [step]
  split
  case isTrue hd =>
    refine reached_snoc hf (first_digit_within (by decide) hd.right hd.left) ?_
    simp only [Expecting.consumed, ofNat_sub_digit hd.right]
    rfl
  case isFalse => trivial

theorem encodeInteger_signed {negative : Bool} {n : UInt64} (h : (Expecting.digits negative n).Fits) :
    encodeInteger (signed negative n) = (Expecting.digits negative n).consumed ++ ['e'.toUInt8] := by
  have ⟨hp, hl⟩ := h
  have hs := toInt_signed hl
  rw [encodeInteger, hs]
  cases negative
  case false => simp [Expecting.consumed, Bytes.ofInt]
  case true =>
    have ⟨k, hk⟩ := Nat.exists_eq_add_one_of_ne_zero (Nat.ne_of_gt hp)
    simp only [if_true, hk]
    rw [show -((k + 1 : Nat) : Int) = .negSucc k from rfl]
    simp [Expecting.consumed, Bytes.ofInt, hk]

theorem accounts_step_digits {negative : Bool} {n : UInt64} (hf : ∀ f ∈ frames, f.Fits)
    (hn : (Expecting.digits negative n).Fits) (b : UInt8) :
    (Decoder.step ⟨frames, .digits negative n⟩ b).Accounts
      (consumedFrames frames ++ (Expecting.digits negative n).consumed ++ [b]) := by
  simp only [step]
  repeat' split
  case isTrue hb =>
    refine accounts_supply_snoc hf (v := .integer (signed negative n)) trivial ?_
    rw [Value.encode, encodeInteger_signed hn, hb]
  case h_1 hd _ m hm =>
    have ⟨hl, he⟩ := (appendDigit?_eq_some_iff (nine_le_maxMagnitude negative) hd).mp hm
    have ⟨hp, _⟩ := hn
    refine reached_snoc hf ⟨by omega, by omega⟩ ?_
    simp only [Expecting.consumed]
    rw [he, Bytes.ofNat_append_digit hp hd, List.append_assoc]
  all_goals trivial

theorem Reached.accounts_step {d : Decoder} (h : d.Reached bs) (b : UInt8) :
    (d.step b).Accounts (bs ++ [b]) := by
  have ⟨frames, expecting⟩ := d
  have ⟨hc, hf, he⟩ := h
  rw [hc]
  cases expecting
  case value   => exact accounts_step_value hf b
  case length  => exact accounts_step_length hf he b
  case content => exact accounts_step_content hf he b
  case sign      => exact accounts_step_sign hf b
  case magnitude => exact accounts_step_magnitude hf b
  case digits    => exact accounts_step_digits hf he b
  case colon =>
    simp only [step]
    split
    case isTrue hb => exact accounts_supply_snoc hf (v := .bytes []) (Nat.zero_le _) (hb ▸ rfl)
    case isFalse => trivial
  case zeroEnd =>
    simp only [step]
    split
    case isTrue hb => exact accounts_supply_snoc hf (v := .integer 0) trivial (hb ▸ rfl)
    case isFalse => trivial

theorem Reached.encode_of_done {d : Decoder} {cs rest : Bytes} {v : Value} (h : d.Reached bs)
    (hr : d.run cs = (.done v, rest)) : bs ++ cs = v.encode ++ rest ∧ v.Fits := by
  induction cs generalizing d bs
  case nil => cases hr
  case cons b cs hi =>
    have ha := h.accounts_step b
    rw [run_cons] at hr
    rw [← List.singleton_append, ← List.append_assoc]
    cases hs : d.step b <;> rw [hs] at hr ha
    case more => exact hi ha hr
    case done =>
      cases hr
      exact ⟨congrArg (· ++ rest) ha.left, ha.right⟩
    case failed => cases hr

end Soundness

end Decoder

theorem decode_encode_append {v : Value} (h : v.Fits) (rest : Bytes) :
    decode (v.encode ++ rest) = (.ok v, rest) := by
  rw [decode, Decoder.run_encode [] rest v h]
  rfl

theorem eq_encode_append_of_decode {data rest : Bytes} {v : Value} (h : decode data = (.ok v, rest)) :
    data = v.encode ++ rest ∧ v.Fits := by
  have hf : Decoder.Reached {} [] := ⟨rfl, nofun, trivial⟩
  rw [decode] at h
  split at h <;> cases h
  case h_1 hr => exact hf.encode_of_done hr

theorem decode_eq_ok_iff (data rest : Bytes) (v : Value) :
    decode data = (.ok v, rest) ↔ data = v.encode ++ rest ∧ v.Fits := by
  constructor
  case mp => exact eq_encode_append_of_decode
  case mpr =>
    intro ⟨hd, hv⟩
    rw [hd]
    exact decode_encode_append hv rest

end TapeShell.Bencode
