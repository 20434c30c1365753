import TapeShell.Text.Rune

namespace TapeShell.Bytes

theorem runesFrom_eq_runes_drop (skip : Nat) (bs : Bytes) :
    runesFrom skip bs = runes (bs.drop skip) := by
  induction bs generalizing skip <;> cases skip
  case cons.succ hi skip => exact hi skip
  all_goals rfl

@[simp]
theorem runes_nil : runes [] = [] :=
  rfl

theorem runes_stray {b : UInt8} {bs : Bytes} (h : firstChar? (b :: bs) = none) :
    runes (b :: bs) = .ofStray b :: runes bs := by
  simp [runes, runesFrom, h]

theorem runes_ofChar_append (c : Char) (bs : Bytes) :
    runes (ofChar c ++ bs) = .ofChar c :: runes bs := by
  have hc := firstChar?_ofChar_append c bs
  have hs : (ofChar c).length = c.utf8Size := String.length_utf8EncodeChar c
  cases h : ofChar c
  case nil => exact absurd h (ofChar_ne_nil c)
  case cons b tl =>
    simp only [h, List.length_cons] at hc hs
    simp only [runes, List.cons_append, runesFrom, List.cons_append ▸ hc]
    rw [← hs, Nat.add_sub_cancel, runesFrom_eq_runes_drop, List.drop_left, runes]

theorem eq_nil_of_cutRune? {bs : Bytes} (h : cutRune? bs = none) : bs = [] := by
  cases bs
  case nil => rfl
  case cons =>
    rw [cutRune?] at h
    split at h <;> cases h

theorem runes_of_cutRune? {bs rest : Bytes} {r : Rune} (h : cutRune? bs = some (r, rest)) :
    runes bs = r :: runes rest := by
  cases bs
  case nil => cases h
  case cons b bs =>
    rw [cutRune?] at h
    rw [runes, runesFrom]
    split at h <;> cases h
    case h_1 => rw [runesFrom_eq_runes_drop]
    case h_2 => rfl

theorem length_of_cutRune? {bs rest : Bytes} {r : Rune} (h : cutRune? bs = some (r, rest)) :
    rest.length < bs.length := by
  cases bs
  case nil => cases h
  case cons b bs =>
    rw [cutRune?] at h
    split at h <;> cases h
    case h_1 =>
      rw [List.length_drop, List.length_cons]
      omega
    case h_2 => exact Nat.lt_succ_self _

-- Every text is made of characters and stray bytes, so a property of texts may be shown by putting
-- one of these in front.
theorem rune_induction {motive : Bytes → Prop} (nil : motive [])
    (char : ∀ c bs, motive bs → motive (ofChar c ++ bs))
    (stray : ∀ b bs, firstChar? (b :: bs) = none → motive bs → motive (b :: bs)) (bs : Bytes) :
    motive bs := by
  induction hn : bs.length using Nat.strongRecOn generalizing bs
  case ind n hi =>
    cases bs
    case nil => exact nil
    case cons b bs =>
      cases hf : firstChar? (b :: bs)
      case none => exact stray b bs hf <| hi bs.length (by simp [← hn]) bs rfl
      case some c =>
        have ⟨rest, h⟩ := eq_append_of_firstChar? hf
        have := List.length_pos_iff.mpr (ofChar_ne_nil c)
        rw [h]
        exact char c rest <| hi rest.length (by simp [← hn, h]; omega) rest rfl

theorem ofRunes_runes (bs : Bytes) : ofRunes (runes bs) = bs := by
  induction bs using rune_induction
  case nil => rfl
  case char c bs hi => rw [runes_ofChar_append, ofRunes, List.flatMap_cons, ← ofRunes, hi]; rfl
  case stray b bs h hi => rw [runes_stray h, ofRunes, List.flatMap_cons, ← ofRunes, hi]; rfl

theorem runes_ofRunes_of_suffix {bs : Bytes} {rs rest : List Rune} (h : runes bs = rs ++ rest) :
    runes (ofRunes rest) = rest := by
  induction bs using rune_induction generalizing rs
  case nil =>
    have ⟨_, hr⟩ := List.append_eq_nil_iff.mp h.symm
    simp [hr, ofRunes]
  case char c bs hi =>
    cases rs
    case nil => rw [← List.nil_append rest, ← h, ofRunes_runes]
    case cons =>
      rw [runes_ofChar_append, List.cons_append, List.cons.injEq] at h
      exact hi h.right
  case stray b bs hf hi =>
    cases rs
    case nil => rw [← List.nil_append rest, ← h, ofRunes_runes]
    case cons =>
      rw [runes_stray hf, List.cons_append, List.cons.injEq] at h
      exact hi h.right

theorem firstChar?_eq_none_of_continuation {b : UInt8} {bs : Bytes} (h : ¬b.IsUTF8FirstByte) :
    firstChar? (b :: bs) = none := by
  cases hf : firstChar? (b :: bs)
  case none => rfl
  case some c =>
    have ⟨rest, he⟩ := eq_append_of_firstChar? hf
    have hb := UInt8.isUTF8FirstByte_getElem_zero_utf8EncodeChar (c := c)
    cases hc : ofChar c
    case nil => exact absurd hc (ofChar_ne_nil c)
    case cons =>
      simp only [hc, List.cons_append, List.cons.injEq] at he
      simp only [ofChar] at hc
      simp only [hc, List.getElem_cons_zero, ← he.left] at hb
      exact absurd hb h

theorem runes_of_continuations {bs : Bytes} (h : ∀ b ∈ bs, ¬b.IsUTF8FirstByte) :
    runes bs = bs.map .ofStray := by
  induction bs
  case nil => rfl
  case cons b bs hi =>
    simp only [List.mem_cons, forall_eq_or_imp] at h
    rw [runes_stray (firstChar?_eq_none_of_continuation h.left), hi h.right, List.map_cons]

theorem continuations_of_ofChar {c : Char} {b : UInt8} {bs : Bytes} (h : ofChar c = b :: bs) :
    ∀ x ∈ bs, ¬x.IsUTF8FirstByte := by
  intro x hx
  have ⟨i, hi, he⟩ := List.mem_iff_getElem.mp hx
  rw [ofChar] at h
  have hlt : i + 1 < (String.utf8EncodeChar c).length := by simp [h, hi]
  have hf := @UInt8.isUTF8FirstByte_getElem_utf8EncodeChar c (i + 1) hlt
  simp only [h, List.getElem_cons_succ, he] at hf
  exact fun hx => absurd (hf.mp hx) (Nat.succ_ne_zero i)

theorem firstChar?_eq_none_of_truncated {c : Char} {part more : Bytes} (h : ofChar c = part ++ more)
    (hm : more ≠ []) : firstChar? part = none := by
  cases hf : firstChar? part
  case none => rfl
  case some d =>
    have ⟨rest, hd⟩ := eq_append_of_firstChar? hf
    have hc := firstChar?_ofChar_append c []
    rw [List.append_nil, h, hd, List.append_assoc, firstChar?_ofChar_append] at hc
    cases hc
    have := congrArg List.length (hd ▸ h)
    simp at this
    exact absurd this.right hm

theorem runes_of_truncated {c : Char} {part more : Bytes} (h : ofChar c = part ++ more)
    (hm : more ≠ []) : runes part = part.map .ofStray := by
  cases part
  case nil => rfl
  case cons b bs =>
    have hc := continuations_of_ofChar h
    rw [runes_stray (firstChar?_eq_none_of_truncated h hm), List.map_cons,
      runes_of_continuations fun x hx => hc x (List.mem_append_left _ hx)]

-- The border between `p` and `q` runs through a character, which leaves stray bytes at the end of `p`.
inductive CutsChar (p q : Bytes) : Prop
  | intro (whole rest : List Rune) (part : Bytes) (c : Char)
    (before : p.runes = whole ++ part.map .ofStray) (part_ne_nil : part ≠ [])
    (joined : (p ++ q).runes = whole ++ .ofChar c :: rest) (size : 1 < c.utf8Size)

namespace CutsChar

variable {p q : Bytes}

theorem ofChar_append (c : Char) : CutsChar p q → CutsChar (ofChar c ++ p) q
  | intro whole rest part d before ne joined size => by
    refine intro (.ofChar c :: whole) rest part d ?before ne ?joined size
    case before => rw [runes_ofChar_append, before, List.cons_append]
    case joined => rw [List.append_assoc, runes_ofChar_append, joined, List.cons_append]

theorem stray {b : UInt8} (h : firstChar? (b :: p) = none) (h' : firstChar? (b :: (p ++ q)) = none) :
    CutsChar p q → CutsChar (b :: p) q
  | intro whole rest part c before ne joined size => by
    refine intro (.ofStray b :: whole) rest part c ?before ne ?joined size
    case before => rw [runes_stray h, before, List.cons_append]
    case joined => rw [List.cons_append, runes_stray h', joined, List.cons_append]

theorem of_truncated {c : Char} {more rest : Bytes} (hp : p ≠ []) (hm : more ≠ [])
    (h : ofChar c = p ++ more) (hq : q = more ++ rest) : CutsChar p q := by
  refine intro [] (runes rest) p c (runes_of_truncated h hm) hp ?joined ?size
  case joined => rw [hq, ← List.append_assoc, ← h, runes_ofChar_append, List.nil_append]
  case size =>
    have hs : (ofChar c).length = c.utf8Size := String.length_utf8EncodeChar c
    have := List.length_pos_iff.mpr hp
    have := List.length_pos_iff.mpr hm
    rw [← hs, h, List.length_append]
    omega

theorem chars (h : CutsChar p q) : ∃ whole strays c rest,
    p.chars = whole ++ strays ∧ strays ≠ [] ∧ (∀ s ∈ strays, s = Rune.replacement) ∧
    (p ++ q).chars = whole ++ c :: rest ∧ 1 < c.utf8Size := by
  have ⟨whole, rest, part, c, before, ne, joined, size⟩ := h
  refine ⟨whole.map Rune.char, part.map fun _ => Rune.replacement, c, rest.map Rune.char,
    ?before, ?ne, ?stray, ?joined, size⟩
  case before =>
    rw [Bytes.chars, before, List.map_append, List.map_map]
    rfl
  case ne     => simpa using ne
  case stray  => simp
  case joined => simp [Bytes.chars, joined, Rune.ofChar]

end CutsChar

-- Where a text is cut, its two parts are read as it is itself, unless the cut runs through a
-- character.
theorem runes_append (p q : Bytes) : runes (p ++ q) = runes p ++ runes q ∨ CutsChar p q := by
  induction p using rune_induction
  case nil => exact .inl rfl
  case char c p hi =>
    refine hi.imp (fun hi => ?_) (·.ofChar_append c)
    rw [List.append_assoc, runes_ofChar_append, runes_ofChar_append, hi, List.cons_append]
  case stray b p h hi =>
    cases hf : firstChar? (b :: (p ++ q))
    case none =>
      refine hi.imp (fun hi => ?_) (·.stray h hf)
      rw [List.cons_append, runes_stray hf, runes_stray h, hi, List.cons_append]
    case some c =>
      have ⟨rest, he⟩ := eq_append_of_firstChar? hf
      rw [← List.cons_append] at he
      rcases List.append_eq_append_iff.mp he with ⟨more, hc, hq⟩ | ⟨more, hp, _⟩
      · by_cases hm : more = []
        case pos =>
          rw [hm, List.append_nil] at hc
          have hd := firstChar?_ofChar_append c []
          rw [List.append_nil, hc, h] at hd
          contradiction
        case neg => exact .inr <| .of_truncated (List.cons_ne_nil b p) hm hc hq
      · rw [hp, firstChar?_ofChar_append] at h
        contradiction

theorem chars_append (p q : Bytes) : chars (p ++ q) = chars p ++ chars q ∨ CutsChar p q :=
  (runes_append p q).imp_left fun h => by rw [chars, h, List.map_append, chars, chars]

end TapeShell.Bytes
