import Mathlib.Algebra.Group.Nat.Defs
import TapeShell.Proofs.Text.Quoted
import TapeShell.Text.Digit

namespace TapeShell.Text

open Bytes

section Hex

def hexDigit (b : UInt8) : Nat :=
  (hexValue? (Char.ofUInt8 b)).getD 0

def hexNumber (digits : Bytes) : Nat :=
  digits.foldl (fun n b => n * 16 + hexDigit b) 0

theorem hexDigit_digitChar : ∀ d < 16, hexDigit d.digitChar.toUInt8 = d := by
  decide

theorem hexNumber_toDigits (n : Nat) : hexNumber ((Nat.toDigits 16 n).map Char.toUInt8) = n := by
  induction n using Nat.strongRecOn
  case ind n hi =>
    by_cases h : n < 16
    case pos =>
      rw [Nat.toDigits_of_lt_base h]
      exact (Nat.zero_add _).trans (hexDigit_digitChar n h)
    case neg =>
      have hn := hi (n / 16) (by omega)
      rw [hexNumber] at hn
      rw [Nat.toDigits_of_base_le (by decide) (by omega), List.map_append, List.map_singleton, hexNumber,
        List.foldl_append, hn, List.foldl_cons, List.foldl_nil, hexDigit_digitChar _ (by omega)]
      omega

theorem hexNumber_ofHex (width n : Nat) : hexNumber (ofHex width n) = n := by
  have hzeros (k : Nat) :
      (List.replicate k '0'.toUInt8).foldl (fun n b => n * 16 + hexDigit b) 0 = 0 := by
    induction k
    case zero => rfl
    case succ k hi => exact hi
  rw [ofHex, padLeft, hexNumber, List.foldl_append, hzeros]
  exact hexNumber_toDigits n

theorem length_ofHex {width n : Nat} (hw : 0 < width) (hn : n < 16 ^ width) :
    (ofHex width n).length = width := by
  have hle : (Nat.toDigits 16 n).length ≤ width := (Nat.length_toDigits_le_iff (by decide) hw).mpr hn
  rw [ofHex, padLeft, List.length_append, List.length_replicate, List.length_map]
  omega

end Hex

def controls : List (Char × Char) :=
  [('a', '\x07'), ('b', '\x08'), ('t', '\t'), ('n', '\n'), ('v', '\x0B'), ('f', '\x0C'), ('r', '\r')]

theorem mem_controls {c letter : Char} (h : controlLetter? c = some letter) : (letter, c) ∈ controls := by
  have hc : c = Char.ofNat c.toNat := (Char.ofNat_toNat c).symm
  unfold controlLetter? at h
  split at h <;> cases h
  all_goals
    rename_i hn
    rw [hc, hn]
    decide

def marks : Bytes := "'\"\\"

theorem eq_of_mem_marks {b : UInt8} (h : b ∈ marks) :
    b = '\''.toUInt8 ∨ b = '"'.toUInt8 ∨ b = '\\'.toUInt8 := by
  have hm : b ∈ ['\''.toUInt8, '"'.toUInt8, '\\'.toUInt8] := h
  simpa only [List.mem_cons, List.not_mem_nil, or_false] using hm

inductive Escape : Bytes → Bytes → Prop
  | mark    : b ∈ marks → Escape ['\\'.toUInt8, b] [b]
  | control : (letter, c) ∈ controls → Escape ['\\'.toUInt8, letter.toUInt8] [c.toUInt8]
  | byte    : Escape ("\\x" ++ ofHex 2 b.toNat) [b]
  | short   : c.toNat < 0x10000 → Escape ("\\u" ++ ofHex 4 c.toNat) (ofChar c)
  | long    : Escape ("\\U" ++ ofHex 8 c.toNat) (ofChar c)

-- `Escaped special text bytes`: `text` stands for `bytes`. It holds no control character, and a byte of
-- `special` only as part of an escape.
inductive Escaped (special : Bytes) : Bytes → Bytes → Prop
  | nil    : Escaped special [] []
  | plain  : b ∉ special → 0x20 ≤ b → b ≠ 0x7F → Escaped special text bytes →
    Escaped special (b :: text) (b :: bytes)
  | escape : Escape seq part → Escaped special text bytes → Escaped special (seq ++ text) (part ++ bytes)

def hexWidth? : Char → Option Nat
  | 'x' => some 2
  | 'u' => some 4
  | 'U' => some 8
  | _ => none

def numbered (width n : Nat) : Bytes :=
  if width = 2 then [UInt8.ofNat n] else ofChar (Char.ofNat n)

def escapeAt : Bytes → Bytes × Nat
  | [] => ([], 0)
  | b :: bs =>
    let letter := Char.ofUInt8 b
    match hexWidth? letter with
    | some width => (numbered width (hexNumber (bs.take width)), width + 1)
    | none => ([((controls.lookup letter).getD letter).toUInt8], 1)

-- Reads escaped text, passing over the first `skip` bytes, up to a double quote that is not escaped: what
-- the text stands for, and what is left.
def unescapeFrom : (skip : Nat) → Bytes → Bytes × Bytes
  | _, [] => ([], [])
  | skip + 1, _ :: bs => unescapeFrom skip bs
  | 0, b :: bs =>
    if b = '"'.toUInt8 then ([], b :: bs)
    else if b = '\\'.toUInt8 then (unescapeFrom (escapeAt bs).2 bs).map ((escapeAt bs).1 ++ ·) id
    else (unescapeFrom 0 bs).map (b :: ·) id

def unescape (text : Bytes) : Bytes :=
  (unescapeFrom 0 text).1

theorem unescapeFrom_eq_drop (skip : Nat) (bs : Bytes) :
    unescapeFrom skip bs = unescapeFrom 0 (bs.drop skip) := by
  induction bs generalizing skip <;> cases skip
  case cons.succ hi skip => exact hi skip
  all_goals rfl

theorem unescapeFrom_backslash (seq : Bytes) {part rest : Bytes}
    (h : escapeAt (seq ++ rest) = (part, seq.length)) :
    unescapeFrom 0 ('\\'.toUInt8 :: (seq ++ rest)) = (unescapeFrom 0 rest).map (part ++ ·) id := by
  rw [unescapeFrom, if_neg (by decide), if_pos rfl, h, unescapeFrom_eq_drop, List.drop_left]

theorem escapeAt_letter {b : UInt8} (h : hexWidth? (Char.ofUInt8 b) = none) (rest : Bytes) :
    escapeAt (b :: rest) =
      ([((controls.lookup (Char.ofUInt8 b)).getD (Char.ofUInt8 b)).toUInt8], 1) := by
  simp only [escapeAt, h]

theorem escapeAt_ofHex {b : UInt8} {width n : Nat} (h : hexWidth? (Char.ofUInt8 b) = some width)
    (hw : 0 < width) (hn : n < 16 ^ width) (rest : Bytes) :
    escapeAt (b :: ofHex width n ++ rest) = (numbered width n, (b :: ofHex width n).length) := by
  have hl := length_ofHex hw hn
  rw [List.cons_append, List.length_cons, hl]
  simp only [escapeAt, h, List.take_left' hl, hexNumber_ofHex]

theorem Escape.unescapeFrom_append {seq part : Bytes} (h : Escape seq part) (rest : Bytes) :
    unescapeFrom 0 (seq ++ rest) = (unescapeFrom 0 rest).map (part ++ ·) id := by
  cases h
  case mark b hb =>
    have ⟨hx, hm⟩ : hexWidth? (Char.ofUInt8 b) = none ∧
        ((controls.lookup (Char.ofUInt8 b)).getD (Char.ofUInt8 b)).toUInt8 = b := by
      rcases eq_of_mem_marks hb with rfl | rfl | rfl <;> decide
    have he := escapeAt_letter hx rest
    rw [hm] at he
    exact unescapeFrom_backslash [b] he
  case control letter c hc =>
    have hcontrols : ∀ p ∈ controls, hexWidth? (Char.ofUInt8 p.1.toUInt8) = none ∧
      (controls.lookup (Char.ofUInt8 p.1.toUInt8)).getD (Char.ofUInt8 p.1.toUInt8) = p.2 := by decide
    have ⟨hx, hm⟩ := hcontrols _ hc
    have he := escapeAt_letter hx rest
    rw [hm] at he
    exact unescapeFrom_backslash [letter.toUInt8] he
  case byte b =>
    have he := escapeAt_ofHex (b := 'x'.toUInt8) rfl (by decide) b.toNat_lt rest
    rw [numbered, if_pos rfl, UInt8.ofNat_toNat] at he
    exact unescapeFrom_backslash _ he
  case short c hc =>
    have he := escapeAt_ofHex (b := 'u'.toUInt8) rfl (by decide) hc rest
    rw [numbered, if_neg (by decide), Char.ofNat_toNat] at he
    exact unescapeFrom_backslash _ he
  case long c =>
    have hc : c.toNat < 16 ^ 8 := c.val.toNat_lt
    have he := escapeAt_ofHex (b := 'U'.toUInt8) rfl (by decide) hc rest
    rw [numbered, if_neg (by decide), Char.ofNat_toNat] at he
    exact unescapeFrom_backslash _ he

theorem Escape.visible {seq part : Bytes} (h : Escape seq part) : ∀ b ∈ seq, 0x20 ≤ b ∧ b ≠ 0x7F := by
  have hhex (width n : Nat) : ∀ b ∈ ofHex width n, 0x20 ≤ b ∧ b ≠ 0x7F :=
    forall_mem_ofHex (by decide) width n
  have hpair (letter : UInt8) (hl : 0x20 ≤ letter ∧ letter ≠ 0x7F) :
      ∀ b ∈ ['\\'.toUInt8, letter], 0x20 ≤ b ∧ b ≠ 0x7F :=
    List.forall_mem_cons.mpr ⟨by decide, List.forall_mem_singleton.mpr hl⟩
  cases h
  case mark b hb =>
    refine hpair b ?_
    rcases eq_of_mem_marks hb with rfl | rfl | rfl <;> decide
  case control letter c hc =>
    have hcontrols : ∀ p ∈ controls, 0x20 ≤ p.1.toUInt8 ∧ p.1.toUInt8 ≠ 0x7F := by decide
    exact hpair letter.toUInt8 (hcontrols _ hc)
  case byte => exact List.forall_mem_append.mpr ⟨hpair 'x'.toUInt8 (by decide), hhex _ _⟩
  case short => exact List.forall_mem_append.mpr ⟨hpair 'u'.toUInt8 (by decide), hhex _ _⟩
  case long => exact List.forall_mem_append.mpr ⟨hpair 'U'.toUInt8 (by decide), hhex _ _⟩

namespace Escaped

variable {special special' text text' bytes bytes' seq : Bytes}

theorem append (h : Escaped special text bytes) (h' : Escaped special text' bytes') :
    Escaped special (text ++ text') (bytes ++ bytes') := by
  induction h
  case nil => exact h'
  case plain hb hlow hdel _ hi => exact .plain hb hlow hdel hi
  case escape he _ hi =>
    rw [List.append_assoc, List.append_assoc]
    exact .escape he hi

theorem mono (h : Escaped special text bytes) (hs : special' ⊆ special) : Escaped special' text bytes := by
  induction h
  case nil => exact .nil
  case plain hb hlow hdel _ hi => exact .plain (fun hm => hb (hs hm)) hlow hdel hi
  case escape he _ hi => exact .escape he hi

theorem of_escape (h : Escape text bytes) : Escaped special text bytes := by
  have he : Escaped special (text ++ []) (bytes ++ []) := .escape h .nil
  rwa [List.append_nil, List.append_nil] at he

theorem of_plain (h : ∀ b ∈ text, b ∉ special ∧ 0x20 ≤ b ∧ b ≠ 0x7F) : Escaped special text text := by
  induction text
  case nil => exact .nil
  case cons b text hi =>
    have ⟨⟨hb, hlow, hdel⟩, ht⟩ := List.forall_mem_cons.mp h
    exact .plain hb hlow hdel (hi ht)

theorem visible (h : Escaped special text bytes) : ∀ b ∈ text, 0x20 ≤ b ∧ b ≠ 0x7F := by
  induction h
  case nil => nofun
  case plain hlow hdel _ hi => exact List.forall_mem_cons.mpr ⟨⟨hlow, hdel⟩, hi⟩
  case escape he _ hi => exact List.forall_mem_append.mpr ⟨he.visible, hi⟩

-- Escaped text is read back whatever follows it, as nothing in it can be taken for its end.
theorem unescapeFrom_append (h : Escaped special text bytes) (hq : '"'.toUInt8 ∈ special)
    (hb : '\\'.toUInt8 ∈ special) (rest : Bytes) :
    unescapeFrom 0 (text ++ rest) = (unescapeFrom 0 rest).map (bytes ++ ·) id := by
  induction h
  case nil => rfl
  case plain b text bytes hs _ _ _ hi =>
    have hne {x : UInt8} (hx : x ∈ special) : b ≠ x := fun he => hs (he ▸ hx)
    rw [List.cons_append, unescapeFrom, if_neg (hne hq), if_neg (hne hb), hi]
    rfl
  case escape seq part text bytes he _ hi =>
    rw [List.append_assoc, he.unescapeFrom_append, hi]
    simp [Prod.map, List.append_assoc]

end Escaped

section Runes

variable (printable : Char → Bool)

theorem escaped_runes {special : Bytes} {f : Rune → Bytes}
    (hc : ∀ c, Escaped special (f (.ofChar c)) (ofChar c))
    (hs : ∀ b, Escaped special (f (.ofStray b)) [b]) (bs : Bytes) :
    Escaped special (bs.runes.flatMap f) bs := by
  induction bs using rune_induction
  case nil => exact .nil
  case char c bs hi =>
    rw [runes_ofChar_append, List.flatMap_cons]
    exact (hc c).append hi
  case stray b bs h hi =>
    rw [runes_stray h, List.flatMap_cons]
    exact (hs b).append hi

theorem escaped_escapeRune_ofStray {special : Bytes} (quote : Char) (b : UInt8) :
    Escaped special (escapeRune printable quote (.ofStray b)) [b] := by
  rw [escapeRune, if_pos (isStray_ofStray b), Rune.ofStray, List.flatMap_singleton]
  exact .of_escape .byte

theorem escapeRune_ofChar (quote c : Char) :
    escapeRune printable quote (.ofChar c) = escapeChar printable quote c := by
  simp [escapeRune, Rune.isStray, Rune.ofChar]

theorem escaped_ofChar {special : Bytes} {c : Char} (hs : special ⊆ marks)
    (hc : c.toNat < 0x80 → c.toUInt8 ∉ special) (hshown : isShown printable c) :
    Escaped special (ofChar c) (ofChar c) := by
  by_cases hascii : c.toNat < 0x80
  case pos =>
    simp only [isShown, if_pos hascii, Bool.and_eq_true, decide_eq_true_eq] at hshown
    have hn := toNat_toUInt8 hascii
    rw [ofChar_of_ascii hascii]
    refine .plain (hc hascii) (UInt8.le_iff_toNat_le.mpr (hn.symm ▸ hshown.left)) ?_ .nil
    intro he
    rw [he] at hn
    exact absurd hshown.right (hn ▸ by decide)
  case neg =>
    refine .of_plain fun b hb => ?_
    have hwide := le_of_mem_ofChar (Nat.le_of_not_lt hascii) b hb
    refine ⟨fun hm => ?_, UInt8.le_trans (by decide) hwide, ?_⟩
    · rcases eq_of_mem_marks (hs hm) with rfl | rfl | rfl <;> exact absurd hwide (by decide)
    · rintro rfl
      exact absurd hwide (by decide)

theorem mem_of_toUInt8_mem_marks {c : Char} (hascii : c.toNat < 0x80) (h : c.toUInt8 ∈ marks) :
    c = '\'' ∨ c = '"' ∨ c = '\\' := by
  have heq {d : Char} (hd : d.toNat < 0x80) (h : c.toUInt8 = d.toUInt8) : c = d := by
    have hn := congrArg UInt8.toNat h
    rw [toNat_toUInt8 hascii, toNat_toUInt8 hd] at hn
    exact Char.toNat_inj.mp hn
  exact (eq_of_mem_marks h).imp (heq (by decide)) (.imp (heq (by decide)) (heq (by decide)))

-- The cases are those of `escapeChar`, one for each kind of escape and one for what is shown as it is.
theorem escaped_escapeChar {c : Char} (hc : c ≠ '\'') :
    Escaped marks (escapeChar printable '"' c) (ofChar c) := by
  unfold escapeChar
  split
  case isTrue h =>
    have hm (b) (hb : b ∈ marks) : Escaped marks ['\\'.toUInt8, b] [b] := .of_escape (.mark hb)
    rcases h with rfl | rfl <;> exact hm _ (by decide)
  case isFalse h =>
    split
    case isTrue hshown =>
      refine escaped_ofChar printable (List.Subset.refl _) (fun hascii hm => ?_) hshown
      exact (mem_of_toUInt8_mem_marks hascii hm).elim hc h
    case isFalse =>
      split
      case h_1 letter hl =>
        have hcontrols : ∀ p ∈ controls, p.2.toNat < 128 := by decide
        have hm := mem_controls hl
        rw [ofChar_of_ascii (hcontrols _ hm)]
        exact .of_escape (.control hm)
      case h_2 =>
        split
        case isTrue hascii =>
          rw [ofChar_of_ascii hascii, ← toNat_toUInt8 hascii]
          exact .of_escape .byte
        case isFalse =>
          split
          case isTrue hshort => exact .of_escape (.short hshort)
          case isFalse => exact .of_escape .long

theorem escaped_escapeWith (bs : Bytes) : Escaped marks (escapeWith printable bs) bs := by
  apply escaped_runes
  case hc =>
    intro c
    by_cases hc : c = '\''
    case pos =>
      rw [hc]
      exact .of_escape (.mark (by decide))
    case neg =>
      have hr : (Rune.ofChar c).char ≠ '\'' := hc
      rw [if_neg hr, escapeRune_ofChar]
      exact escaped_escapeChar printable hc
  case hs =>
    intro b
    have hr : Rune.replacement ≠ '\'' := by decide
    have hb : (Rune.ofStray b).char ≠ '\'' := hr
    rw [if_neg hb]
    exact escaped_escapeRune_ofStray printable '"' b

def quoteMarks : Bytes := "\"\\"

theorem escaped_quoted (bs : Bytes) :
    Escaped quoteMarks (bs.runes.flatMap (escapeRune printable '"')) bs := by
  apply escaped_runes
  case hc =>
    intro c
    rw [escapeRune_ofChar]
    by_cases hc : c = '\''
    case pos =>
      subst hc
      exact .plain (by decide) (by decide) (by decide) .nil
    case neg => exact (escaped_escapeChar printable hc).mono (by decide)
  case hs => exact escaped_escapeRune_ofStray printable '"'

theorem visible_quoteWith (bs : Bytes) : ∀ b ∈ quoteWith printable bs, 0x20 ≤ b ∧ b ≠ 0x7F := by
  have h := (escaped_quoted printable bs).visible
  rw [quoteWith, List.forall_mem_append, List.forall_mem_cons, List.forall_mem_singleton]
  exact ⟨⟨by decide, h⟩, by decide⟩

theorem unescape_escapeWith (bs : Bytes) : unescape (escapeWith printable bs) = bs := by
  have h := (escaped_escapeWith printable bs).unescapeFrom_append (by decide) (by decide) []
  rw [List.append_nil] at h
  rw [unescape, h]
  exact List.append_nil bs

theorem unescapeFrom_quoteWith_append (bs rest : Bytes) :
    unescapeFrom 0 (quoteWith printable bs ++ rest).tail = (bs, '"'.toUInt8 :: rest) := by
  have hq := (escaped_quoted printable bs).unescapeFrom_append (by decide) (by decide)
    ('"'.toUInt8 :: rest)
  rw [quoteWith, List.cons_append, List.cons_append, List.tail_cons, List.append_assoc,
    List.singleton_append, hq]
  simp [unescapeFrom]

variable {printable}

theorem quoteWith_append_inj {bs bs' rest rest' : Bytes}
    (h : quoteWith printable bs ++ rest = quoteWith printable bs' ++ rest') : bs = bs' ∧ rest = rest' := by
  have heq := unescapeFrom_quoteWith_append printable bs rest
  rw [h, unescapeFrom_quoteWith_append] at heq
  simp only [Prod.mk.injEq, List.cons.injEq, true_and] at heq
  exact ⟨heq.left.symm, heq.right.symm⟩

end Runes

end TapeShell.Text
