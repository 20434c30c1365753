import TapeShell.Machine.Scripted
import TapeShell.Proofs.Reader.Completion

namespace TapeShell

namespace Fault

inductive Refusal where
  | unexpected
  | trailing
  | uncompiled
  deriving DecidableEq, Repr

def refusal? : Fault → Option Refusal
  | .unexpected _ => some .unexpected
  | .trailing _ => some .trailing
  | .uncompiled _ => some .uncompiled
  | _ => none

end Fault

namespace Bytes

-- Between `p` and `rest`, the text has one character, read from the bytes `b`.
structure SplitsAt (text p b : Bytes) (c : Char) (rest : Bytes) : Prop where
  joined : text = p ++ b ++ rest
  runes  : text.runes = p.runes ++ ⟨c, b⟩ :: rest.runes
  bytes  : b = ofChar c ∨ (c = Rune.replacement ∧ ∃ x, b = [x] ∧ firstChar? (x :: rest) = none)

theorem firstChar?_eq_none_of_append {p q : Bytes} (h : firstChar? (p ++ q) = none) :
    firstChar? p = none := by
  cases hf : firstChar? p
  case none => rfl
  case some c =>
    have ⟨rest, hp⟩ := eq_append_of_firstChar? hf
    rw [hp, List.append_assoc, firstChar?_ofChar_append] at h
    contradiction

theorem ofRunes_append (rs qs : List Rune) : ofRunes (rs ++ qs) = ofRunes rs ++ ofRunes qs :=
  List.flatMap_append

theorem runes_ofRunes_of_leading {bs : Bytes} {rs rest : List Rune} (h : runes bs = rs ++ rest) :
    runes (ofRunes rs) = rs := by
  induction bs using rune_induction generalizing rs
  case nil =>
    obtain ⟨hr, _⟩ := List.append_eq_nil_iff.mp h.symm
    simp [hr, ofRunes]
  case char c bs hi =>
    cases rs
    case nil => rfl
    case cons r rs =>
      rw [runes_ofChar_append, List.cons_append, List.cons.injEq] at h
      obtain ⟨hr, hrs⟩ := h
      rw [← hr, ofRunes, List.flatMap_cons, ← ofRunes]
      exact (runes_ofChar_append c _).trans (congrArg _ (hi hrs))
  case stray b bs hf hi =>
    cases rs
    case nil => rfl
    case cons r rs =>
      rw [runes_stray hf, List.cons_append, List.cons.injEq] at h
      obtain ⟨hr, hrs⟩ := h
      have hbs : bs = ofRunes rs ++ ofRunes rest := by rw [← ofRunes_append, ← hrs, ofRunes_runes]
      rw [hbs, ← List.cons_append] at hf
      rw [← hr, ofRunes, List.flatMap_cons, ← ofRunes]
      exact (runes_stray (firstChar?_eq_none_of_append hf)).trans (congrArg _ (hi hrs))

theorem bytes_of_runes {bs : Bytes} {r : Rune} {rs : List Rune} (h : runes bs = r :: rs) :
    r.bytes = ofChar r.char ∨
      (r.char = Rune.replacement ∧ ∃ x, r.bytes = [x] ∧ firstChar? (x :: ofRunes rs) = none) := by
  induction bs using rune_induction
  case nil => cases h
  case char c bs _ =>
    rw [runes_ofChar_append] at h
    cases h
    exact .inl rfl
  case stray b bs hf _ =>
    rw [runes_stray hf] at h
    cases h
    exact .inr ⟨rfl, b, rfl, by rwa [ofRunes_runes]⟩

theorem splitsAt_of_runes {text : Bytes} {rs rest : List Rune} {r : Rune}
    (h : text.runes = rs ++ r :: rest) : SplitsAt text (ofRunes rs) r.bytes r.char (ofRunes rest) := by
  have hafter := runes_ofRunes_of_suffix h
  have hsnoc : text.runes = (rs ++ [r]) ++ rest := by rw [h, List.append_assoc, List.singleton_append]
  have hrest := runes_ofRunes_of_suffix hsnoc
  refine ⟨?joined, ?runes, bytes_of_runes hafter⟩
  case joined =>
    rw [← ofRunes_runes text, h, ofRunes_append, List.append_assoc]
    rfl
  case runes => rw [h, runes_ofRunes_of_leading h, hrest]

theorem chars_ofRunes_of_leading {text : Bytes} {rs rest : List Rune} (h : text.runes = rs ++ rest) :
    chars (ofRunes rs) = rs.map Rune.char := by
  rw [chars, runes_ofRunes_of_leading h]

theorem CutsChar.not_isUtf8 {p q : Bytes} (h : CutsChar p q) : ¬p.isUtf8 := by
  have ⟨whole, _, part, _, before, ne, _, _⟩ := h
  intro hp
  have ⟨b, hb⟩ := List.exists_mem_of_ne_nil part ne
  have hmem : Rune.ofStray b ∈ p.runes := by
    rw [before]
    exact List.mem_append_right _ (List.mem_map_of_mem hb)
  have := List.all_eq_true.mp hp _ hmem
  simp [isStray_ofStray] at this

end Bytes

namespace Reader

open Grammar

variable {C : Type} {compile : Bytes → Except Fault C} {r : Reader C} {c d : Char} {f : Fault}

theorem refusal?_atEnd (r : Reader C) : r.atEnd.refusal? = none := by
  unfold atEnd
  split <;> rfl

section Named

def Progress.Names (c : Char) : Progress C → Prop
  | .failed (.unexpected d) => d = c
  | _ => True

theorem names_supply (frames : List (Frame C)) (e : Expr C) : (supply frames e).Names c := by
  induction frames generalizing e
  case nil => trivial
  case cons frame frames hi =>
    cases frame
    case no => exact hi _
    all_goals trivial

theorem names_closeCall (frames : List (Frame C)) : (closeCall frames).Names ')' := by
  unfold closeCall
  split
  case h_3 => exact rfl
  all_goals apply names_supply

theorem names_closeLiteral (frames : List (Frame C)) (literal : Literal) (text : Bytes) :
    (closeLiteral compile frames literal text).Names c := by
  cases literal
  case lambda =>
    simp only [closeLiteral]
    split
    case h_1 => apply names_supply
    case h_2 => trivial
  all_goals apply names_supply

theorem names_start (frames : List (Frame C)) (c : Char) : (start frames c).Names c := by
  unfold start
  by_cases hc : c = ')'
  case pos => simpa [hc, isSpace] using names_closeCall frames
  case neg =>
    rw [if_neg hc]
    repeat' split
    case isFalse => exact rfl
    all_goals trivial

theorem names_step (compile : Bytes → Except Fault C) (r : Reader C) (c : Char) :
    (r.step compile c).Names c := by
  have ⟨frames, place⟩ := r
  cases place
  case between => exact names_start frames c
  case inside =>
    simp only [step]
    repeat' split
    case isTrue => apply names_closeLiteral
    all_goals trivial
  case escaped =>
    simp only [step]
    split
    case h_1 => trivial
    case h_2 => exact rfl

end Named

theorem isSpace_wide (hc : 1 < c.utf8Size) : isSpace c = false := by
  have hne {d : Char} := ne_of_wide (d := d) hc
  simp (disch := decide) [isSpace, hne]

theorem Reached.inside_or_refuses {cs : List Char} (h : Reached compile r cs) :
    (∃ l content, l.IsProper ∧ r.place = .inside l content) ∨
      ∀ c, 1 < c.utf8Size → r.step compile c = .failed (.unexpected c) := by
  cases h
  case between => exact .inr fun c hc => start_wide hc _
  case inside hl _ _ _ => exact .inl ⟨_, _, hl, rfl⟩
  case escaped hl _ _ _ =>
    refine .inr fun c hc => ?_
    simp [step, unescape?_wide hl hc]

theorem exists_of_run_failed {rs rest : List Rune} (h : r.run compile rs = (.failed f, rest)) :
    ∃ used last r', rs = used ++ last :: rest ∧
      r.runChars compile (used.map Rune.char) = (.more r', []) ∧
      r'.step compile last.char = .failed f := by
  induction rs generalizing r
  case nil => cases h
  case cons c rs hi =>
    rw [run] at h
    cases hs : r.step compile c.char <;> simp only [hs] at h
    case more =>
      obtain ⟨used, last, r', hrs, hused, hlast⟩ := hi h
      refine ⟨c :: used, last, r', congrArg (c :: ·) hrs, ?_, hlast⟩
      rw [List.map_cons, runChars_cons, hs, Progress.resume_more, hused]
    case done => cases h
    case failed =>
      cases h
      exact ⟨[], c, r, rfl, rfl, hs⟩

theorem exists_of_run_done {rs rest : List Rune} {e : Expr C} (h : r.run compile rs = (.done e, rest)) :
    ∃ used, rs = used ++ rest ∧ r.runChars compile (used.map Rune.char) = (.done e, []) := by
  induction rs generalizing r
  case nil => cases h
  case cons c rs hi =>
    rw [run] at h
    cases hs : r.step compile c.char <;> simp only [hs] at h
    case more =>
      obtain ⟨used, hrs, hused⟩ := hi h
      refine ⟨c :: used, congrArg (c :: ·) hrs, ?_⟩
      rw [List.map_cons, runChars_cons, hs, Progress.resume_more, hused]
    case done =>
      cases h
      refine ⟨[c], rfl, ?_⟩
      rw [List.map_singleton, runChars_cons, hs, Progress.resume_done]
    case failed => cases h

end Reader

namespace Expr

open Grammar Reader

variable {C : Type} {compile : Bytes → Except Fault C} {cs ds : List Char} {f : Fault}
  {k : Fault.Refusal} {text : Bytes} {c : Char}

theorem readChars_append_of_refused (h : readChars compile cs = .error f) (hk : f.refusal? = some k)
    (ds : List Char) : readChars compile (cs ++ ds) = .error f := by
  rcases hr : Reader.runChars compile {} cs with ⟨p, rest⟩
  simp only [readChars, runChars_append, hr] at h ⊢
  cases p
  case more r =>
    cases h
    simp [refusal?_atEnd] at hk
  case failed => exact h
  case done e =>
    simp only [Progress.resume_done, List.dropWhile_append]
    cases hd : rest.dropWhile isSpace <;> simp only [hd] at h ⊢
    case nil => cases h
    case cons => exact h

-- Where a text ends in the middle of a character, the whole character is refused as its first bytes are.
theorem exists_readChars_of_cut {whole strays : List Char}
    (h : readChars compile (whole ++ strays) = .error f) (hk : f.refusal? = some k) (hne : strays ≠ [])
    (hs : ∀ s ∈ strays, 1 < s.utf8Size) (hc : 1 < c.utf8Size) (rest : List Char) :
    ∃ g, readChars compile (whole ++ c :: rest) = .error g ∧ g.refusal? = some k := by
  have ⟨s, ss, hstrays⟩ := List.exists_cons_of_ne_nil hne
  have hwide : 1 < s.utf8Size := hs s (by simp [hstrays])
  rcases hr : Reader.runChars compile {} whole with ⟨p, left⟩
  cases p
  case failed f' =>
    simp only [readChars, runChars_append, hr, Progress.resume_failed] at h ⊢
    cases h
    exact ⟨_, rfl, hk⟩
  case more r =>
    have hreached := reached_of_runChars hr
    cases runChars_of_more hr
    simp only [readChars, runChars_append, hr, Progress.resume_more, List.nil_append] at h ⊢
    rcases hreached.inside_or_refuses with ⟨l, content, hl, hplace⟩ | hrefuses
    · -- Inside a literal, the stray bytes are part of it, and the text is only incomplete.
      cases r
      cases hplace
      rw [runChars_wide hl hs] at h
      cases h
      simp [refusal?_atEnd] at hk
    · rw [hstrays, runChars_cons, hrefuses s hwide] at h
      cases h
      rw [runChars_cons, hrefuses c hc]
      exact ⟨_, rfl, hk⟩
  case done e =>
    simp only [readChars, runChars_append, hr, Progress.resume_done, List.dropWhile_append] at h ⊢
    cases hd : left.dropWhile isSpace <;> simp only [hd, hstrays] at h ⊢
    case cons =>
      cases h
      exact ⟨_, rfl, hk⟩
    case nil =>
      simp only [List.isEmpty_nil, if_true, List.dropWhile_cons, isSpace_wide hwide, isSpace_wide hc,
        Bool.false_eq_true, if_false] at h ⊢
      cases h
      exact ⟨_, rfl, hk⟩

theorem exists_read_append_of_refused (h : read compile text = .error f) (hk : f.refusal? = some k)
    (s : Bytes) : ∃ g, read compile (text ++ s) = .error g ∧ g.refusal? = some k ∧
      (text.isUtf8 → g = f) := by
  simp only [read_eq_readChars] at h ⊢
  rcases Bytes.chars_append text s with ha | hcut
  · rw [ha]
    exact ⟨f, readChars_append_of_refused h hk _, hk, fun _ => rfl⟩
  · have ⟨whole, strays, c, rest, hp, hne, hs, hj, hc⟩ := hcut.chars
    have hwide (x) (hx : x ∈ strays) : 1 < x.utf8Size := by
      rw [hs x hx]
      decide
    rw [hp] at h
    rw [hj]
    have ⟨g, hg, hgk⟩ := exists_readChars_of_cut h hk hne hwide hc rest
    exact ⟨g, hg, hgk, fun hu => absurd hu hcut.not_isUtf8⟩

theorem run_of_read_refused (h : read compile text = .error f) (hk : f.refusal? = some k) :
    (∃ rest, Reader.run compile {} text.runes = (.failed f, rest)) ∨
      ∃ e rest c after, Reader.run compile {} text.runes = (.done e, rest) ∧
        (rest.map Rune.char).dropWhile isSpace = c :: after ∧ f = .trailing c := by
  rcases hr : Reader.run compile {} text.runes with ⟨p, rest⟩
  rw [read_eq_readChars, readChars, Bytes.chars, runChars_map, hr] at h
  cases p
  case more r =>
    cases h
    simp [refusal?_atEnd] at hk
  case failed =>
    cases h
    exact .inl ⟨rest, rfl⟩
  case done e =>
    simp only at h
    split at h <;> cases h
    case h_2 c after hd => exact .inr ⟨e, rest, c, after, rfl, hd, rfl⟩

theorem exists_of_read_unexpected (h : read compile text = .error (.unexpected c)) :
    ∃ p b rest, Bytes.SplitsAt text p b c rest ∧
      (read compile p = .error .empty ∨ read compile p = .error .incomplete) ∧
      parse compile ⟨text, none⟩ = (.error (.unexpected c), ⟨rest, none⟩) := by
  rcases run_of_read_refused h rfl with ⟨rest, hr⟩ | ⟨_, _, _, _, _, _, hf⟩
  · have ⟨used, last, r, hrunes, hused, hlast⟩ := exists_of_run_failed hr
    have hname := names_step compile r last.char
    rw [hlast] at hname
    cases hname
    refine ⟨_, _, _, Bytes.splitsAt_of_runes hrunes, ?before, by rw [parse_eq_readFrom, readFrom, hr]; rfl⟩
    case before =>
      rw [read_eq_readChars, readChars, Bytes.chars_ofRunes_of_leading hrunes, hused]
      simp only [atEnd]
      split
      case isTrue => exact .inl rfl
      case isFalse => exact .inr rfl
  · cases hf

theorem exists_of_dropWhile_isSpace {rest : List Rune} {after : List Char}
    (h : (rest.map Rune.char).dropWhile isSpace = c :: after) :
    ∃ blank last after', rest = blank ++ last :: after' ∧ IsBlank (blank.map Rune.char) ∧
      last.char = c := by
  induction rest
  case nil => cases h
  case cons rune rest hi =>
    rw [List.map_cons, List.dropWhile_cons] at h
    split at h
    case isTrue hspace =>
      have ⟨blank, last, after', hrest, hblank, hlast⟩ := hi h
      refine ⟨rune :: blank, last, after', congrArg (rune :: ·) hrest, ?_, hlast⟩
      exact List.forall_mem_cons.mpr ⟨isSpace_iff.mp hspace, hblank⟩
    case isFalse =>
      cases h
      exact ⟨[], rune, rest, rfl, IsBlank.nil, rfl⟩

theorem exists_of_read_trailing (h : read compile text = .error (.trailing c)) :
    ∃ p b rest, Bytes.SplitsAt text p b c rest ∧ ∃ e, read compile p = .ok e := by
  rcases run_of_read_refused h rfl with ⟨rest, hr⟩ | ⟨e, rest, d, after, hr, hd, hf⟩
  · have hrefuses := refuses_runChars compile {} (text.runes.map Rune.char)
    rw [runChars_map, hr] at hrefuses
    rcases hrefuses with ⟨_, hf⟩ | ⟨_, _, _, hf⟩ <;> cases hf
  · cases hf
    have ⟨used, hrunes, hused⟩ := exists_of_run_done hr
    have ⟨blank, last, after, hrest, hblank, hlast⟩ := exists_of_dropWhile_isSpace hd
    subst hlast
    have hsplit : text.runes = (used ++ blank) ++ last :: after := by
      rw [hrunes, hrest, List.append_assoc]
    refine ⟨_, _, _, Bytes.splitsAt_of_runes hsplit, e, ?_⟩
    rw [read_eq_readChars, Bytes.chars_ofRunes_of_leading hsplit, readChars_eq_ok_iff_blank]
    refine ⟨blank.map Rune.char, ?_, hblank⟩
    rw [List.map_append, runChars_append, hused, Progress.resume_done, List.nil_append]

theorem read_refused_for_good {compile : Bytes → Except Fault C} {text : Bytes} {f : Fault}
    {k : Fault.Refusal} (h : read compile text = .error f) (hk : f.refusal? = some k) :
    (∀ s, ∃ g, read compile (text ++ s) = .error g ∧ g.refusal? = some k ∧ (text.isUtf8 → g = f)) ∧
    (∀ c, f = .unexpected c → ∃ p b rest, Bytes.SplitsAt text p b c rest ∧
      (read compile p = .error .empty ∨ read compile p = .error .incomplete) ∧
      parse compile ⟨text, none⟩ = (.error f, ⟨rest, none⟩)) ∧
    ∀ c, f = .trailing c → ∃ p b rest, Bytes.SplitsAt text p b c rest ∧ ∃ e, read compile p = .ok e := by
  refine ⟨exists_read_append_of_refused h hk, ?unexpected, ?trailing⟩
  case unexpected =>
    rintro c rfl
    exact exists_of_read_unexpected h
  case trailing =>
    rintro c rfl
    exact exists_of_read_trailing h

-- The first byte of a snowman, after a backslash and after an expression; the rest of it changes the character
-- that is named but not the kind of the fault. Code that is refused stays so whatever follows it.
theorem read_refused_for_good_half_character :
    (∃ p b rest, Bytes.SplitsAt [0x27, 0x5C, 0xE2] p b Rune.replacement rest ∧
      (read Script.compile p = .error .empty ∨ read Script.compile p = .error .incomplete)) ∧
    (∃ p b rest, Bytes.SplitsAt [0x28, 0x29, 0x20, 0xE2] p b Rune.replacement rest ∧
      ∃ e, read Script.compile p = .ok e) ∧
    (∃ g, read Script.compile ([0x28, 0x29, 0x20, 0xE2] ++ [0x98, 0x83]) = .error g ∧
      g.refusal? = some .trailing) ∧
    read Script.compile ([0x60, 0x21, 0x27] ++ [0x29]) =
      .error (.uncompiled (.plain "refusing to compile \"!\"")) := by
  have hescape : read Script.compile [0x27, 0x5C, 0xE2] = .error (.unexpected Rune.replacement) :=
    (read_eq_readChars _ _).trans rfl
  have htrailing : read Script.compile [0x28, 0x29, 0x20, 0xE2] = .error (.trailing Rune.replacement) :=
    (read_eq_readChars _ _).trans rfl
  have hcode : read Script.compile [0x60, 0x21, 0x27] =
      .error (.uncompiled (.plain "refusing to compile \"!\"")) :=
    (read_eq_readChars _ _).trans rfl
  have ⟨p, b, rest, hsplit, hbefore, _⟩ := (read_refused_for_good hescape rfl).right.left _ rfl
  have ⟨hfinal, _, hafter⟩ := read_refused_for_good htrailing rfl
  have ⟨g, hg, hkind, _⟩ := hfinal [0x98, 0x83]
  have ⟨g', hg', _, hsame⟩ := (read_refused_for_good hcode rfl).left [0x29]
  exact ⟨⟨p, b, rest, hsplit, hbefore⟩, hafter _ rfl, ⟨g, hg, hkind⟩, hsame rfl ▸ hg'⟩

end Expr
end TapeShell
