import TapeShell.Proofs.Reader.Prefix
import TapeShell.Proofs.Text.Utf8

namespace TapeShell

namespace Reader

open Grammar

variable {C : Type} {compile : Bytes → Except Fault C}

-- What is still to be written of an expression once the part that is being read has been supplied to
-- it. Parts that are missing are filled in with nil.
def Frame.completion : Frame C → List Char
  | .test             => ['(', ')', '(', ')']
  | .yes _            => ['(', ')']
  | .no ..            => []
  | .callee | .arg .. => [')']

def Place.completion : Place → List Char
  | .between           => ['(', ')']
  | .inside literal _  => [literal.delimiter]
  | .escaped literal _ => ['\\', literal.delimiter]

def completion (r : Reader C) : List Char :=
  r.place.completion ++ r.frames.flatMap Frame.completion

theorem runChars_nil_call (frames : List (Frame C)) (rest : List Char) :
    Reader.runChars compile ⟨frames, .between⟩ ('(' :: ')' :: rest) =
      (supply frames .nil).resume compile rest :=
  runChars_writes (.nil .nil) frames rest

theorem exists_resume_frame (compile : Bytes → Except Fault C) (f : Frame C) (frames : List (Frame C))
    (e : Expr C) : ∃ v, ∀ rest, (supply (f :: frames) e).resume compile (f.completion ++ rest) =
      (supply frames v).resume compile rest := by
  cases f
  case test =>
    refine ⟨.cond e .nil .nil, fun rest => ?_⟩
    simp [supply, Frame.completion, runChars_nil_call]
  case yes test =>
    refine ⟨.cond test e .nil, fun rest => ?_⟩
    simp [supply, Frame.completion, runChars_nil_call]
  case no test yes => exact ⟨.cond test yes e, fun _ => rfl⟩
  case callee =>
    refine ⟨.call e [], fun rest => ?_⟩
    simp [supply, Frame.completion, runChars_close, closeCall]
  case arg callee args =>
    refine ⟨.call callee (e :: args).reverse, fun rest => ?_⟩
    simp [supply, Frame.completion, runChars_close, closeCall]

theorem exists_resume_supply (compile : Bytes → Except Fault C) (frames : List (Frame C)) (e : Expr C) :
    ∃ v, (supply frames e).resume compile (frames.flatMap Frame.completion) = (.done v, []) := by
  induction frames generalizing e
  case nil => exact ⟨e, rfl⟩
  case cons f frames hi =>
    have ⟨e', he⟩ := exists_resume_frame compile f frames e
    have ⟨v, hv⟩ := hi e'
    exact ⟨v, by rw [List.flatMap_cons, he, hv]⟩

section Accepting

variable (hc : ∀ src, ∃ code, compile src = .ok code)
include hc

theorem exists_closeLiteral (frames : List (Frame C)) (literal : Literal) (text : Bytes) :
    ∃ e, closeLiteral compile frames literal text = supply frames e := by
  cases literal
  case str => exact ⟨.str text, rfl⟩
  case macroName => exact ⟨.macroName text, rfl⟩
  case lambda =>
    have ⟨code, h⟩ := hc text
    exact ⟨.lambda code, by rw [closeLiteral, h]⟩

theorem exists_runChars_delimiter (frames : List (Frame C)) (literal : Literal) (content : List Char) :
    ∃ e, ∀ rest, Reader.runChars compile ⟨frames, .inside literal content⟩ (literal.delimiter :: rest) =
      (supply frames e).resume compile rest := by
  have ⟨e, he⟩ := exists_closeLiteral hc frames literal (Bytes.ofChars content.reverse)
  refine ⟨e, fun rest => ?_⟩
  simp [runChars_cons, step, he]

-- Wherever a reader stands, first the literal it is in is closed, and then the frames one by one.
theorem exists_runChars_completion (r : Reader C) :
    ∃ v, r.runChars compile r.completion = (.done v, []) := by
  have ⟨frames, place⟩ := r
  have ⟨e, he⟩ : ∃ e, ∀ rest,
      Reader.runChars compile ⟨frames, place⟩ (place.completion ++ rest) =
        (supply frames e).resume compile rest := by
    cases place
    case between => exact ⟨.nil, runChars_nil_call frames⟩
    case inside literal content => exact exists_runChars_delimiter hc frames literal content
    case escaped literal content =>
      have ⟨e, he⟩ := exists_runChars_delimiter hc frames literal ('\\' :: content)
      refine ⟨e, fun rest => ?_⟩
      have hu : unescape? literal.delimiter '\\' = some '\\' := rfl
      simpa [Place.completion, runChars_cons, step, hu] using he rest
  have ⟨v, hv⟩ := exists_resume_supply compile frames e
  exact ⟨v, by rw [completion, he, hv]⟩

end Accepting

def Progress.Refuses (compile : Bytes → Except Fault C) : Progress C → Prop
  | .failed f =>
    (∃ c, f = .unexpected c) ∨ ∃ src cause, compile src = .error cause ∧ f = .uncompiled cause
  | _         => True

theorem refuses_supply (frames : List (Frame C)) (e : Expr C) :
    (supply frames e).Refuses compile := by
  induction frames generalizing e
  case nil => trivial
  case cons f frames hi =>
    cases f
    case no test yes => exact hi (.cond test yes e)
    all_goals trivial

theorem refuses_closeCall (frames : List (Frame C)) : (closeCall frames).Refuses compile := by
  unfold closeCall
  split
  case h_3 => exact .inl ⟨')', rfl⟩
  all_goals apply refuses_supply

theorem refuses_closeLiteral (frames : List (Frame C)) (literal : Literal) (text : Bytes) :
    (closeLiteral compile frames literal text).Refuses compile := by
  cases literal
  case lambda =>
    simp only [closeLiteral]
    split
    case h_1 => apply refuses_supply
    case h_2 cause hc => exact .inr ⟨text, cause, hc, rfl⟩
  all_goals apply refuses_supply

theorem refuses_start (frames : List (Frame C)) (c : Char) :
    (start frames c).Refuses compile := by
  unfold start
  by_cases hc : c = ')'
  case pos => simpa [hc, isSpace] using refuses_closeCall frames
  case neg =>
    rw [if_neg hc]
    repeat' split
    case isFalse => exact .inl ⟨c, rfl⟩
    all_goals trivial

theorem refuses_step (compile : Bytes → Except Fault C) (r : Reader C) (c : Char) :
    (r.step compile c).Refuses compile := by
  have ⟨frames, place⟩ := r
  cases place
  case between => exact refuses_start frames c
  case inside literal content =>
    simp only [step]
    repeat' split
    case isTrue => apply refuses_closeLiteral
    all_goals trivial
  case escaped literal content =>
    simp only [step]
    split
    case h_1 => trivial
    case h_2 => exact .inl ⟨c, rfl⟩

theorem refuses_runChars (compile : Bytes → Except Fault C) (r : Reader C) (cs : List Char) :
    (r.runChars compile cs).1.Refuses compile := by
  induction cs generalizing r
  case nil => trivial
  case cons c cs hi =>
    have hr := refuses_step compile r c
    rw [runChars_cons]
    cases hs : r.step compile c <;> rw [hs] at hr
    case more r => exact hi r
    case done => trivial
    case failed => exact hr

end Reader

namespace Expr

open Grammar Reader

variable {C : Type} {compile : Bytes → Except Fault C}

theorem readChars_eq_error {cs : List Char} {f : Fault} (h : readChars compile cs = .error f) :
    f = .empty ∨ f = .incomplete ∨ (∃ c, f = .unexpected c) ∨ (∃ c, f = .trailing c) ∨
      ∃ src cause, compile src = .error cause ∧ f = .uncompiled cause := by
  have hr := refuses_runChars compile {} cs
  rcases hs : Reader.runChars compile {} cs with ⟨p, rest⟩
  rw [hs] at hr
  cases p <;> simp only [readChars, hs] at h
  case more r =>
    cases h
    unfold atEnd
    split <;> simp
  case done =>
    split at h <;> cases h
    simp
  case failed =>
    cases h
    rcases hr with hc | hu
    · exact .inr <| .inr <| .inl hc
    · exact .inr <| .inr <| .inr <| .inr hu

theorem exists_runChars_of_readChars {cs : List Char} {f : Fault} (h : readChars compile cs = .error f)
    (hf : f = .empty ∨ f = .incomplete) :
    ∃ r, Reader.runChars compile {} cs = (.more r, []) ∧ r.atEnd = f := by
  have hr := refuses_runChars compile {} cs
  rcases hs : Reader.runChars compile {} cs with ⟨p, rest⟩
  rw [hs] at hr
  cases p <;> simp only [readChars, hs] at h
  case more r =>
    cases h
    exact ⟨r, by rw [runChars_of_more hs], rfl⟩
  case done =>
    split at h <;> cases h
    simp at hf
  case failed =>
    cases h
    rcases hr with ⟨c, rfl⟩ | ⟨_, _, _, rfl⟩ <;> simp at hf

theorem isBlank_of_readChars_empty {cs : List Char} (h : readChars compile cs = .error .empty) :
    IsBlank cs := by
  have ⟨r, hr, he⟩ := exists_runChars_of_readChars h (.inl rfl)
  refine (reached_of_runChars hr).isBlank ?_
  unfold atEnd at he
  split at he
  case isTrue hf => exact hf
  case isFalse => cases he

theorem exists_read_append_of_incomplete {text : Bytes} (hc : ∀ src, ∃ code, compile src = .ok code)
    (h : read compile text = .error .incomplete) : ∃ s e, read compile (text ++ s) = .ok e := by
  rw [read_eq_readChars] at h
  have ⟨r, hr, _⟩ := exists_runChars_of_readChars h (.inr rfl)
  have ⟨e, he⟩ := exists_runChars_completion hc r
  refine ⟨Bytes.ofChars r.completion, e, ?_⟩
  rw [read_eq_readChars, Bytes.chars_append_ofChars, readChars_eq_ok_iff_blank]
  refine ⟨[], ?_, .nil⟩
  rw [runChars_append, hr, Progress.resume_more, List.nil_append, he]

theorem read_eq_incomplete_iff {compile : Bytes → Except Fault C}
    (hc : ∀ src, ∃ code, compile src = .ok code) (text : Bytes) :
    read compile text = .error .incomplete ↔
      (∃ c ∈ text.chars, c ∉ [' ', '\t', '\r', '\n']) ∧
      (∀ e, read compile text ≠ .ok e) ∧
      ∃ s e, read compile (text ++ s) = .ok e := by
  have hb : (∃ c ∈ text.chars, c ∉ [' ', '\t', '\r', '\n']) ↔ ¬IsBlank text.chars := by
    simp [IsBlank]
  rw [hb]
  constructor
  case mp =>
    intro h
    refine ⟨fun hb => ?_, fun e he => ?_, exists_read_append_of_incomplete hc h⟩
    · rw [read_blank hb] at h
      cases h
    · rw [he] at h
      cases h
  case mpr =>
    rintro ⟨hb, hn, s, e, he⟩
    rcases read_append he with ⟨h, _⟩ | h | ⟨h, _⟩
    · rw [read_eq_readChars] at h
      exact absurd (isBlank_of_readChars_empty h) hb
    · exact h
    · exact absurd h (hn e)

theorem read_eq_incomplete_iff_half_character :
    (∀ src, ∃ code, (Except.ok src : Except Fault Bytes) = .ok code) ∧
    read (C := Bytes) .ok [0x3F, 0x28, 0x60, 0xC3] = .error .incomplete ∧
    (∃ c ∈ Bytes.chars [0x3F, 0x28, 0x60, 0xC3], c ∉ [' ', '\t', '\r', '\n']) ∧
    ∃ s e, read (C := Bytes) .ok ([0x3F, 0x28, 0x60, 0xC3] ++ s) = .ok e := by
  have hc (src : Bytes) : ∃ code, (Except.ok src : Except Fault Bytes) = .ok code := ⟨src, rfl⟩
  have h : read (C := Bytes) .ok [0x3F, 0x28, 0x60, 0xC3] = .error .incomplete :=
    (read_eq_readChars _ _).trans rfl
  have ⟨hn, _, he⟩ := (read_eq_incomplete_iff hc _).mp h
  exact ⟨hc, h, hn, he⟩

end Expr
end TapeShell
