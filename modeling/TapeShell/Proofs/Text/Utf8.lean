import TapeShell.Proofs.Text.Runes

namespace TapeShell.Bytes

theorem isUTF8FirstByte_of_ofChar {c : Char} {b : UInt8} {bs : Bytes} (h : ofChar c = b :: bs) :
    b.IsUTF8FirstByte := by
  have hb := UInt8.isUTF8FirstByte_getElem_zero_utf8EncodeChar (c := c)
  rw [ofChar] at h
  simpa only [h, List.getElem_cons_zero] using hb

-- A byte that starts a character does not complete one that was begun before it.
theorem firstChar?_append_eq_none {p q : Bytes} {b : UInt8} (hp : p ≠ []) (h : firstChar? p = none)
    (hb : b.IsUTF8FirstByte) : firstChar? (p ++ b :: q) = none := by
  cases hf : firstChar? (p ++ b :: q)
  case none => rfl
  case some c =>
    have ⟨rest, he⟩ := eq_append_of_firstChar? hf
    have hne (more : Bytes) : p ≠ ofChar c ++ more := by
      rintro rfl
      rw [firstChar?_ofChar_append] at h
      contradiction
    rcases List.append_eq_append_iff.mp he with ⟨more, hc, hq⟩ | ⟨more, hp', _⟩
    · cases more
      case nil => exact absurd (by simp [hc]) (hne [])
      case cons m more =>
        have ⟨hm, _⟩ := List.cons.inj hq
        cases p
        case nil => contradiction
        case cons => exact absurd (hm ▸ hb) (continuations_of_ofChar hc m (by simp))
    · exact absurd hp' (hne more)

theorem runes_append_ofChar (p : Bytes) (c : Char) (q : Bytes) :
    runes (p ++ (ofChar c ++ q)) = runes p ++ runes (ofChar c ++ q) := by
  induction p using rune_induction
  case nil => rfl
  case char d p hi =>
    rw [List.append_assoc, runes_ofChar_append, runes_ofChar_append, hi, List.cons_append]
  case stray b p h hi =>
    have hn : firstChar? (b :: (p ++ (ofChar c ++ q))) = none := by
      cases hc : ofChar c
      case nil => exact absurd hc (ofChar_ne_nil c)
      case cons =>
        exact firstChar?_append_eq_none (List.cons_ne_nil b p) h (isUTF8FirstByte_of_ofChar hc)
    rw [List.cons_append, runes_stray hn, runes_stray h, hi, List.cons_append]

theorem runes_ofChars (cs : List Char) : runes (ofChars cs) = cs.map .ofChar := by
  induction cs
  case nil => rfl
  case cons c cs hi => rw [ofChars_cons, runes_ofChar_append, hi, List.map_cons]

theorem runes_append_ofChars (p : Bytes) (cs : List Char) :
    runes (p ++ ofChars cs) = runes p ++ cs.map .ofChar := by
  cases cs
  case nil => simp [ofChars]
  case cons c cs => rw [ofChars_cons, runes_append_ofChar, ← ofChars_cons, runes_ofChars]

theorem chars_append_ofChars (p : Bytes) (cs : List Char) :
    chars (p ++ ofChars cs) = chars p ++ cs := by
  simp [chars, runes_append_ofChars, Function.comp_def, Rune.ofChar]

theorem isUtf8_ofChars (cs : List Char) : isUtf8 (ofChars cs) := by
  simp [isUtf8, runes_ofChars, Rune.isStray, Rune.ofChar]

theorem isStray_ofStray (b : UInt8) : (Rune.ofStray b).isStray := by
  have : [b] ≠ ofChar Rune.replacement := by
    intro h
    have hs : 1 = Rune.replacement.utf8Size := by simpa [ofChar] using congrArg List.length h
    exact absurd hs (by decide)
  simpa [Rune.isStray, Rune.ofStray]

theorem isUtf8_iff {bs : Bytes} : bs.isUtf8 ↔ ∃ cs, bs = ofChars cs := by
  constructor
  case mp =>
    intro h
    induction bs using rune_induction
    case nil => exact ⟨[], rfl⟩
    case char c bs hi =>
      rw [isUtf8, runes_ofChar_append, List.all_cons, Bool.and_eq_true] at h
      have ⟨cs, hc⟩ := hi h.right
      exact ⟨c :: cs, by rw [ofChars_cons, hc]⟩
    case stray b bs hf _ =>
      rw [isUtf8, runes_stray hf, List.all_cons, isStray_ofStray] at h
      contradiction
  case mpr =>
    rintro ⟨cs, rfl⟩
    exact isUtf8_ofChars cs

theorem ofRunes_map_ofChar (cs : List Char) : ofRunes (cs.map .ofChar) = ofChars cs := by
  rw [ofRunes, List.flatMap_map]
  rfl

theorem chars_ofChars (cs : List Char) : chars (ofChars cs) = cs :=
  chars_append_ofChars [] cs

theorem ofChars_chars {bs : Bytes} (h : bs.isUtf8) : ofChars bs.chars = bs := by
  obtain ⟨cs, rfl⟩ := isUtf8_iff.mp h
  rw [chars_ofChars]

theorem isUtf8_append {p q : Bytes} (hp : p.isUtf8) (hq : q.isUtf8) : (p ++ q).isUtf8 := by
  have ⟨cs, hc⟩ := isUtf8_iff.mp hp
  have ⟨ds, hd⟩ := isUtf8_iff.mp hq
  rw [hc, hd, ← ofChars_append]
  exact isUtf8_ofChars (cs ++ ds)

theorem isUtf8_flatMap {α : Type} {xs : List α} {f : α → Bytes} (h : ∀ x ∈ xs, (f x).isUtf8) :
    isUtf8 (xs.flatMap f) := by
  induction xs
  case nil => rfl
  case cons x xs hi =>
    have ⟨hx, hs⟩ := List.forall_mem_cons.mp h
    rw [List.flatMap_cons]
    exact isUtf8_append hx (hi hs)

theorem isUtf8_ofString (s : String) : isUtf8 (ofString s) :=
  isUtf8_ofChars s.toList

theorem isUtf8_ofChar (c : Char) : isUtf8 (ofChar c) := by
  have := isUtf8_ofChars [c]
  rwa [ofChars_cons, ofChars, List.flatMap_nil, List.append_nil] at this

theorem ofChar_ofUInt8 {b : UInt8} (h : b < 128) : ofChar (Char.ofUInt8 b) = [b] := by
  have hb : (Char.ofUInt8 b).val.toNat = b.toNat := UInt8.toNat_toUInt32 b
  have hle : b.toNat ≤ 127 := Nat.le_of_lt_succ (UInt8.lt_iff_toNat_lt.mp h)
  simp [ofChar, String.utf8EncodeChar, hb, hle]

theorem toNat_toUInt8 {c : Char} (h : c.toNat < 128) : c.toUInt8.toNat = c.toNat := by
  have hc : c.toUInt8.toNat = c.toNat % 256 := rfl
  omega

theorem ofChar_of_ascii {c : Char} (h : c.toNat < 128) : ofChar c = [c.toUInt8] := by
  have hn := toNat_toUInt8 h
  have hc : Char.ofUInt8 c.toUInt8 = c := Char.toNat_inj.mp ((UInt8.toNat_toUInt32 _).trans hn)
  rw [← ofChar_ofUInt8 (UInt8.lt_iff_toNat_lt.mpr (hn.symm ▸ h)), hc]

theorem le_of_mem_ofChar {c : Char} (h : 128 ≤ c.toNat) : ∀ b ∈ ofChar c, 128 ≤ b := by
  intro b hb
  apply UInt8.not_lt.mp
  intro hlt
  have hascii : ofChar (Char.ofUInt8 b) = [b] := ofChar_ofUInt8 hlt
  have ⟨before, after, hc⟩ := List.append_of_mem hb
  cases before
  case nil =>
    have hfirst := firstChar?_ofChar_append c []
    rw [List.append_nil, hc, List.nil_append, ← List.singleton_append, ← hascii,
      firstChar?_ofChar_append] at hfirst
    cases hfirst
    have : b.toNat < 128 := UInt8.lt_iff_toNat_lt.mp hlt
    have : (Char.ofUInt8 b).toNat = b.toNat := UInt8.toNat_toUInt32 b
    omega
  case cons =>
    exact continuations_of_ofChar hc b (by simp) (isUTF8FirstByte_of_ofChar hascii)

theorem isUtf8_of_ascii {bs : Bytes} (h : ∀ b ∈ bs, b < 128) : bs.isUtf8 := by
  have := isUtf8_flatMap (f := fun b => [b]) fun b hb => by
    rw [← ofChar_ofUInt8 (h b hb)]
    exact isUtf8_ofChar _
  rwa [List.flatMap_singleton'] at this

end TapeShell.Bytes
