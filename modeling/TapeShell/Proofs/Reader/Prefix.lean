import TapeShell.Proofs.Reader.Grammar

namespace TapeShell

theorem Grammar.IsBlank.utf8Size_eq_one {cs : List Char} (h : IsBlank cs) {c : Char} (hc : c ∈ cs) :
    c.utf8Size = 1 := by
  have hc := h c hc
  simp only [List.mem_cons, List.not_mem_nil, or_false] at hc
  rcases hc with rfl | rfl | rfl | rfl <;> decide

namespace Reader

open Grammar

variable {C : Type} {compile : Bytes → Except Fault C} {r : Reader C}

theorem Reached.isBlank {cs : List Char} (h : Reached compile r cs) (hf : r.isFresh) :
    IsBlank cs := by
  cases h
  case between fs cs ws ho hw =>
    cases fs
    case nil =>
      cases ho
      exact hw
    case cons => simp [isFresh] at hf
  all_goals simp [isFresh] at hf

-- The characters that end literals, and those that mean something outside of them, are all ASCII.
theorem ne_of_wide {c d : Char} (hc : 1 < c.utf8Size) (hd : d.utf8Size = 1) : c ≠ d := by
  rintro rfl
  omega

theorem Literal.IsProper.ne_delimiter {l : Literal} (hl : l.IsProper) {c : Char}
    (hc : 1 < c.utf8Size) : c ≠ l.delimiter := by
  have hd := hl.delimiter_mem
  generalize l.delimiter = d at hd
  simp only [List.mem_cons, List.not_mem_nil, or_false] at hd
  rcases hd with rfl | rfl | rfl <;> exact ne_of_wide hc (by decide)

theorem start_wide {c : Char} (hc : 1 < c.utf8Size) (frames : List (Frame C)) :
    start frames c = .failed (.unexpected c) := by
  have hne {d : Char} := ne_of_wide (d := d) hc
  simp (disch := decide) [start, isSpace, hne]

theorem unescape?_wide {l : Literal} (hl : l.IsProper) {c : Char} (hc : 1 < c.utf8Size) :
    unescape? l.delimiter c = none := by
  have hne {d : Char} := ne_of_wide (d := d) hc
  simp (disch := decide) [unescape?, hne, hl.ne_delimiter hc]

theorem Reached.inside_of_wide {cs : List Char} (h : Reached compile r cs) {c : Char}
    (hc : 1 < c.utf8Size) (hs : ∀ f, r.step compile c ≠ .failed f) :
    ∃ l content, l.IsProper ∧ r.place = .inside l content := by
  cases h
  case between => exact absurd (start_wide hc _) (hs _)
  case inside hl _ _ _ => exact ⟨_, _, hl, rfl⟩
  case escaped hl _ _ _ => exact absurd (by simp [step, unescape?_wide hl hc]) (hs (.unexpected c))

theorem runChars_wide {l : Literal} (hl : l.IsProper) {frames : List (Frame C)} {cs : List Char}
    (hc : ∀ c ∈ cs, 1 < c.utf8Size) (content : List Char) :
    Reader.runChars compile ⟨frames, .inside l content⟩ cs =
      (.more ⟨frames, .inside l (cs.reverse ++ content)⟩, []) := by
  induction cs generalizing content
  case nil => rfl
  case cons c cs hi =>
    have ⟨hc, hs⟩ := List.forall_mem_cons.mp hc
    have hb : c ≠ '\\' := ne_of_wide hc (by decide)
    rw [runChars_cons]
    simp [step, hl.ne_delimiter hc, hb, hi hs]

end Reader

namespace Expr

open Grammar Reader

variable {C : Type} {compile : Bytes → Except Fault C}

theorem readChars_blank {cs : List Char} (h : IsBlank cs) :
    readChars compile cs = .error .empty := by
  rw [readChars, ← List.append_nil cs, runChars_blank h []]
  rfl

theorem readChars_blank_append {ws : List Char} (h : IsBlank ws) (cs : List Char) :
    readChars compile (ws ++ cs) = readChars compile cs := by
  rw [readChars, runChars_blank h, readChars]

theorem readChars_append {cs ds : List Char} {e : Expr C} (h : readChars compile (cs ++ ds) = .ok e) :
    (readChars compile cs = .error .empty ∧ readChars compile ds = .ok e) ∨
    readChars compile cs = .error .incomplete ∨
    (readChars compile cs = .ok e ∧ IsBlank ds) := by
  rcases hr : Reader.runChars compile {} cs with ⟨p, rest⟩
  cases p
  case more r =>
    by_cases hf : r.isFresh
    case pos =>
      have hb := (reached_of_runChars hr).isBlank hf
      rw [readChars_blank_append hb] at h
      exact .inl ⟨readChars_blank hb, h⟩
    case neg =>
      refine .inr <| .inl ?_
      simp [readChars, hr, atEnd, hf]
  case done e' =>
    rw [readChars_eq_ok_iff_blank, runChars_append, hr, Progress.resume_done] at h
    rcases h with ⟨_, ⟨⟩, hb⟩
    have hb := isBlank_append.mp hb
    exact .inr <| .inr ⟨readChars_eq_ok_iff_blank.mpr ⟨rest, hr, hb.left⟩, hb.right⟩
  case failed f =>
    rw [readChars, runChars_append, hr, Progress.resume_failed] at h
    cases h

theorem readChars_truncated {cs strays ds : List Char} {c : Char} {e : Expr C}
    (h : readChars compile (cs ++ c :: ds) = .ok e) (hc : 1 < c.utf8Size)
    (hs : ∀ s ∈ strays, 1 < s.utf8Size) : readChars compile (cs ++ strays) = .error .incomplete := by
  rcases hr : Reader.runChars compile {} cs with ⟨p, rest⟩
  rw [readChars_eq_ok_iff_blank, runChars_append, hr] at h
  have ⟨after, hafter, hb⟩ := h
  cases p
  case more r =>
    rw [runChars_of_more hr, List.nil_append, Progress.resume_more, runChars_cons] at hafter
    have hn (f) : r.step compile c ≠ .failed f := by
      intro hf
      rw [hf] at hafter
      cases hafter
    have ⟨l, content, hl, hp⟩ := (reached_of_runChars hr).inside_of_wide hc hn
    cases r
    cases hp
    rw [readChars, runChars_append, hr, runChars_of_more hr, Progress.resume_more, List.nil_append,
      runChars_wide hl hs]
    simp [atEnd, isFresh]
  case done =>
    rw [Progress.resume_done] at hafter
    cases hafter
    have := hb.utf8Size_eq_one (c := c) (by simp)
    omega
  case failed => cases hafter

theorem read_append {p q : Bytes} {e : Expr C} (h : read compile (p ++ q) = .ok e) :
    (read compile p = .error .empty ∧ read compile q = .ok e) ∨
    read compile p = .error .incomplete ∨
    (read compile p = .ok e ∧ IsBlank q.chars) := by
  simp only [read_eq_readChars] at h ⊢
  rcases Bytes.chars_append p q with ha | hc
  · exact readChars_append (ha ▸ h)
  · have ⟨whole, strays, c, rest, hp, _, hs, hj, hc⟩ := hc.chars
    rw [hj] at h
    rw [hp]
    refine .inr <| .inl <| readChars_truncated h hc ?_
    intro s hm
    rw [hs s hm]
    decide

theorem read_blank {text : Bytes} (h : IsBlank text.chars) : read compile text = .error .empty := by
  rw [read_eq_readChars, readChars_blank h]

theorem read_nil : read compile [] = .error .empty :=
  read_blank IsBlank.nil

end Expr

theorem Grammar.isBlank_chars_append {p q : Bytes} (h : IsBlank (p ++ q).chars) :
    IsBlank p.chars ∧ IsBlank q.chars := by
  rcases Bytes.chars_append p q with ha | hc
  · exact isBlank_append.mp (ha ▸ h)
  · have ⟨_, _, c, _, _, _, _, hj, hc⟩ := hc.chars
    have := h.utf8Size_eq_one (c := c) (by simp [hj])
    omega

end TapeShell
