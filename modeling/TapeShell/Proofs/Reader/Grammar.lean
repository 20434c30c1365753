import Mathlib.Data.List.TakeWhile
import TapeShell.Proofs.Reader.Run

namespace TapeShell

namespace Grammar

def IsBlank (cs : List Char) : Prop :=
  ∀ c ∈ cs, c ∈ [' ', '\t', '\r', '\n']

inductive Escape (delimiter : Char) : Char → Char → Prop
  | carriageReturn : Escape delimiter 'r' '\r'
  | lineFeed       : Escape delimiter 'n' '\n'
  | tab            : Escape delimiter 't' '\t'
  | backslash      : Escape delimiter '\\' '\\'
  | delimiter      : Escape delimiter delimiter delimiter

-- `Quoted d cs ms`: between its delimiters, a literal that ends with `d` and holds `ms` is written `cs`.
inductive Quoted (delimiter : Char) : List Char → List Char → Prop
  | nil : Quoted delimiter [] []
  | plain : c ≠ delimiter → c ≠ '\\' → Quoted delimiter cs ms → Quoted delimiter (c :: cs) (c :: ms)
  | escaped : Escape delimiter c m → Quoted delimiter cs ms →
    Quoted delimiter ('\\' :: c :: cs) (m :: ms)

variable {C : Type}

mutual

-- `Writes compile cs e`: the characters `cs` write the expression `e`, from its first character to its
-- last.
inductive Writes (compile : Bytes → Except Fault C) : List Char → Expr C → Prop
  | str : quote = '\'' ∨ quote = '"' → Quoted quote cs ms →
    Writes compile (quote :: cs ++ [quote]) (.str (Bytes.ofChars ms))
  | cond : Nested compile as test → Nested compile bs yes → Nested compile cs no →
    Writes compile ('?' :: as ++ bs ++ cs) (.cond test yes no)
  | lambda : Quoted '\'' cs ms → compile (Bytes.ofChars ms) = .ok code →
    Writes compile ('`' :: cs ++ ['\'']) (.lambda code)
  | nil : IsBlank ws → Writes compile ('(' :: ws ++ [')']) .nil
  | call : Nested compile cs callee → NestedAll compile as args → IsBlank ws →
    Writes compile ('(' :: cs ++ as ++ ws ++ [')']) (.call callee args)
  | macroName : Quoted '~' cs ms → Writes compile ('@' :: cs ++ ['~']) (.macroName (Bytes.ofChars ms))

inductive Nested (compile : Bytes → Except Fault C) : List Char → Expr C → Prop
  | intro : IsBlank ws → Writes compile cs e → Nested compile (ws ++ cs) e

inductive NestedAll (compile : Bytes → Except Fault C) : List Char → List (Expr C) → Prop
  | nil : NestedAll compile [] []
  | cons : Nested compile cs e → NestedAll compile ds es → NestedAll compile (cs ++ ds) (e :: es)

end

theorem IsBlank.nil : IsBlank [] :=
  nofun

theorem isBlank_append {cs ds : List Char} : IsBlank (cs ++ ds) ↔ IsBlank cs ∧ IsBlank ds := by
  simp only [IsBlank, List.mem_append, or_imp, forall_and]

theorem isSpace_iff {c : Char} : Reader.isSpace c ↔ c ∈ [' ', '\t', '\r', '\n'] := by
  simp [Reader.isSpace, or_assoc]

theorem IsBlank.dropWhile_eq_nil {cs : List Char} :
    cs.dropWhile Reader.isSpace = [] ↔ IsBlank cs := by
  simp only [List.dropWhile_eq_nil_iff, isSpace_iff, IsBlank]

namespace Quoted

variable {delimiter : Char} {cs ds ms ns : List Char}

theorem append (h₁ : Quoted delimiter cs ms) (h₂ : Quoted delimiter ds ns) :
    Quoted delimiter (cs ++ ds) (ms ++ ns) := by
  induction h₁
  case nil => exact h₂
  case plain hd hb _ hi => exact .plain hd hb hi
  case escaped he _ hi => exact .escaped he hi

theorem snoc_plain {c : Char} (h : Quoted delimiter cs ms) (hd : c ≠ delimiter) (hb : c ≠ '\\') :
    Quoted delimiter (cs ++ [c]) (ms ++ [c]) :=
  h.append <| .plain hd hb .nil

theorem snoc_escaped {c m : Char} (h : Quoted delimiter cs ms) (he : Escape delimiter c m) :
    Quoted delimiter (cs ++ ['\\', c]) (ms ++ [m]) :=
  h.append <| .escaped he .nil

end Quoted

theorem NestedAll.append {compile : Bytes → Except Fault C} {cs ds : List Char} {es fs : List (Expr C)}
    (h₁ : NestedAll compile cs es) (h₂ : NestedAll compile ds fs) :
    NestedAll compile (cs ++ ds) (es ++ fs) := by
  match h₁ with
  | .nil => exact h₂
  | .cons h h₁ =>
    rw [List.append_assoc]
    exact .cons h (h₁.append h₂)

mutual

theorem Writes.isWhole {compile : Bytes → Except Fault C} {cs : List Char} {e : Expr C}
    (h : Writes compile cs e) : e.isWhole := by
  match h with
  | .str .. | .lambda .. | .nil _ | .macroName _ => rfl
  | .cond ht hy hn => simp [Expr.isWhole, ht.isWhole, hy.isWhole, hn.isWhole]
  | .call hc hs _ => simp [Expr.isWhole, hc.isWhole, hs.allWhole]

theorem Nested.isWhole {compile : Bytes → Except Fault C} {cs : List Char} {e : Expr C}
    (h : Nested compile cs e) : e.isWhole := by
  match h with
  | .intro _ h => exact h.isWhole

theorem NestedAll.allWhole {compile : Bytes → Except Fault C} {cs : List Char} {es : List (Expr C)}
    (h : NestedAll compile cs es) : Expr.allWhole es := by
  match h with
  | .nil => rfl
  | .cons h hs => simp [Expr.allWhole, h.isWhole, hs.allWhole]

end

end Grammar

namespace Reader

open Grammar

variable {C : Type} {compile : Bytes → Except Fault C}

def Literal.IsProper : Literal → Prop
  | .str quote => quote = '\'' ∨ quote = '"'
  | .lambda | .macroName => True

def Literal.opener : Literal → Char
  | .str quote => quote
  | .lambda => '`'
  | .macroName => '@'

theorem Literal.IsProper.delimiter_mem {l : Literal} (h : l.IsProper) :
    l.delimiter ∈ ['\'', '"', '~'] := by
  cases l
  case str => rcases h with h | h <;> simp [delimiter, h]
  all_goals simp [delimiter]

theorem escape_of_unescape? {d c m : Char} (h : unescape? d c = some m) : Escape d c m := by
  simp only [unescape?] at h
  repeat' split at h
  all_goals cases h
  all_goals subst ‹c = _›
  · exact .carriageReturn
  · exact .lineFeed
  · exact .tab
  · exact .backslash
  · exact .delimiter

theorem unescape?_of_escape {l : Literal} {c m : Char} (hl : l.IsProper) (h : Escape l.delimiter c m) :
    unescape? l.delimiter c = some m := by
  cases h
  case delimiter =>
    have hd := hl.delimiter_mem
    generalize l.delimiter = d at hd
    simp only [List.mem_cons, List.not_mem_nil, or_false] at hd
    rcases hd with rfl | rfl | rfl <;> rfl
  all_goals rfl

theorem start_opener {l : Literal} (hl : l.IsProper) (frames : List (Frame C)) :
    start frames l.opener = .more ⟨frames, .inside l []⟩ := by
  cases l
  case str => rcases hl with rfl | rfl <;> rfl
  all_goals rfl

section Completeness

variable {frames : List (Frame C)}

theorem runChars_blank {ws : List Char} (h : IsBlank ws) (rest : List Char) :
    Reader.runChars compile ⟨frames, .between⟩ (ws ++ rest) =
      Reader.runChars compile ⟨frames, .between⟩ rest := by
  induction ws
  case nil => rfl
  case cons c ws hi =>
    have ⟨hc, hw⟩ := List.forall_mem_cons.mp h
    rw [List.cons_append, runChars_cons]
    simp [step, start, isSpace_iff.mpr hc, hi hw]

theorem runChars_quoted {l : Literal} (hl : l.IsProper) {cs ms : List Char}
    (h : Quoted l.delimiter cs ms) (content rest : List Char) :
    Reader.runChars compile ⟨frames, .inside l content⟩ (cs ++ l.delimiter :: rest) =
      (closeLiteral compile frames l (Bytes.ofChars (content.reverse ++ ms))).resume compile rest := by
  induction h generalizing content
  case nil =>
    rw [List.nil_append, runChars_cons, List.append_nil]
    simp [step]
  case plain c cs ms hd hb _ hi =>
    rw [List.cons_append, runChars_cons]
    simp [step, hd, hb, hi]
  case escaped c m cs ms he _ hi =>
    have hb : '\\' ≠ l.delimiter := by
      have := hl.delimiter_mem
      intro h
      simp [← h] at this
    rw [List.cons_append, List.cons_append, runChars_cons]
    simp [step, hb, runChars_cons, unescape?_of_escape hl he, hi]

theorem runChars_literal {l : Literal} (hl : l.IsProper) {cs ms : List Char}
    (h : Quoted l.delimiter cs ms) (rest : List Char) :
    Reader.runChars compile ⟨frames, .between⟩ (l.opener :: cs ++ [l.delimiter] ++ rest) =
      (closeLiteral compile frames l (Bytes.ofChars ms)).resume compile rest := by
  rw [List.append_assoc, List.cons_append, List.singleton_append, runChars_cons, step,
    start_opener hl, Progress.resume_more, runChars_quoted hl h, List.reverse_nil, List.nil_append]

theorem runChars_close (rest : List Char) :
    Reader.runChars compile ⟨frames, .between⟩ (')' :: rest) =
      (closeCall frames).resume compile rest :=
  runChars_cons ..

mutual

theorem runChars_writes {cs : List Char} {e : Expr C} (h : Writes compile cs e)
    (frames : List (Frame C)) (rest : List Char) :
    Reader.runChars compile ⟨frames, .between⟩ (cs ++ rest) =
      (supply frames e).resume compile rest := by
  match h with
  | .str hq h => exact runChars_literal (l := .str _) hq h rest
  | .lambda h hc =>
    refine (runChars_literal (l := .lambda) trivial h rest).trans ?_
    rw [closeLiteral, hc]
  | .macroName h => exact runChars_literal (l := .macroName) trivial h rest
  | .nil hw =>
    rw [List.append_assoc, List.cons_append, runChars_cons, step, start]
    simp [isSpace, runChars_blank hw, runChars_close, closeCall]
  | .cond ha hb hc =>
    simp only [List.append_assoc, List.cons_append]
    rw [runChars_cons, step, start]
    simp [isSpace, runChars_nested ha, supply, runChars_nested hb, runChars_nested hc]
  | .call ha hs hw =>
    simp only [List.append_assoc, List.cons_append]
    rw [runChars_cons, step, start]
    simp [isSpace, runChars_nested ha, supply, runChars_nestedAll hs, runChars_blank hw,
      runChars_close, closeCall]

theorem runChars_nested {cs : List Char} {e : Expr C} (h : Nested compile cs e)
    (frames : List (Frame C)) (rest : List Char) :
    Reader.runChars compile ⟨frames, .between⟩ (cs ++ rest) =
      (supply frames e).resume compile rest := by
  match h with
  | .intro hw h =>
    rw [List.append_assoc, runChars_blank hw, runChars_writes h]

theorem runChars_nestedAll {cs : List Char} {es : List (Expr C)} (h : NestedAll compile cs es)
    (frames : List (Frame C)) (callee : Expr C) (args : List (Expr C)) (rest : List Char) :
    Reader.runChars compile ⟨.arg callee args :: frames, .between⟩ (cs ++ rest) =
      Reader.runChars compile ⟨.arg callee (es.reverse ++ args) :: frames, .between⟩ rest := by
  match h with
  | .nil => rfl
  | .cons h hs =>
    rw [List.append_assoc, runChars_nested h, supply, Progress.resume_more, runChars_nestedAll hs]
    simp

end

end Completeness

section Soundness

-- `Opened frames cs`: the characters `cs` are what has been read of the expressions in `frames`.
inductive Opened (compile : Bytes → Except Fault C) : List (Frame C) → List Char → Prop
  | nil : Opened compile [] []
  | test : Opened compile fs cs → IsBlank ws → Opened compile (.test :: fs) (cs ++ (ws ++ ['?']))
  | yes : Opened compile (.test :: fs) cs → Nested compile as test →
    Opened compile (.yes test :: fs) (cs ++ as)
  | no : Opened compile (.yes test :: fs) cs → Nested compile as yes →
    Opened compile (.no test yes :: fs) (cs ++ as)
  | callee : Opened compile fs cs → IsBlank ws → Opened compile (.callee :: fs) (cs ++ (ws ++ ['(']))
  | called : Opened compile (.callee :: fs) cs → Nested compile as callee →
    Opened compile (.arg callee [] :: fs) (cs ++ as)
  | arg : Opened compile (.arg callee args :: fs) cs → Nested compile as e →
    Opened compile (.arg callee (e :: args) :: fs) (cs ++ as)

-- `Reached r cs`: the characters `cs` bring a fresh reader to `r`.
inductive Reached (compile : Bytes → Except Fault C) : Reader C → List Char → Prop
  | between : Opened compile fs cs → IsBlank ws → Reached compile ⟨fs, .between⟩ (cs ++ ws)
  | inside : l.IsProper → Opened compile fs cs → IsBlank ws → Quoted l.delimiter bs content.reverse →
    Reached compile ⟨fs, .inside l content⟩ (cs ++ (ws ++ l.opener :: bs))
  | escaped : l.IsProper → Opened compile fs cs → IsBlank ws → Quoted l.delimiter bs content.reverse →
    Reached compile ⟨fs, .escaped l content⟩ (cs ++ (ws ++ l.opener :: (bs ++ ['\\'])))

theorem Reached.fresh (compile : Bytes → Except Fault C) : Reached compile {} [] :=
  .between .nil .nil

def Progress.Accounts (compile : Bytes → Except Fault C) : Progress C → List Char → Prop
  | .more r, cs => Reached compile r cs
  | .done e, cs => Nested compile cs e
  | .failed _, _ => True

theorem Opened.arg_inv {fs : List (Frame C)} {callee : Expr C} {args : List (Expr C)} {cs : List Char}
    (h : Opened compile (.arg callee args :: fs) cs) : ∃ ds ws as bs,
      Opened compile fs ds ∧ IsBlank ws ∧ Nested compile as callee ∧
      NestedAll compile bs args.reverse ∧ cs = ds ++ (ws ++ '(' :: (as ++ bs)) := by
  induction args generalizing cs
  case nil =>
    have .called (.callee h hw) ha := h
    exact ⟨_, _, _, [], h, hw, ha, .nil, by simp⟩
  case cons e args hi =>
    have .arg h he := h
    have ⟨ds, ws, as, bs, hd, hw, ha, hb, hc⟩ := hi h
    have hs := hb.append <| .cons he .nil
    rw [← List.reverse_cons] at hs
    exact ⟨ds, ws, as, _, hd, hw, ha, hs, by simp [hc]⟩

-- Each frame takes the expression that is supplied to it as the grammar does, and only a conditional
-- is completed by that.
theorem Opened.accounts_supply {fs : List (Frame C)} {cs as : List Char} {e : Expr C}
    (h : Opened compile fs cs) (he : Nested compile as e) :
    (supply fs e).Accounts compile (cs ++ as) := by
  induction fs generalizing cs as e
  case nil =>
    cases h
    exact he
  case cons f fs hi =>
    cases f
    case no test yes =>
      have .no (.yes (.test h hw) ht) hy := h
      have := hi h <| .intro hw <| .cond ht hy he
      simpa [supply] using this
    all_goals
      rw [← List.append_nil (cs ++ as)]
      refine .between ?_ .nil
    case test => exact h.yes he
    case yes => exact h.no he
    case callee => exact h.called he
    case arg => exact h.arg he

theorem Opened.accounts_closeCall {fs : List (Frame C)} {cs ws : List Char}
    (h : Opened compile fs cs) (hw : IsBlank ws) :
    (closeCall fs).Accounts compile (cs ++ ws ++ [')']) := by
  rcases fs with _ | ⟨f, fs⟩
  case nil => trivial
  case cons =>
    cases f
    case callee =>
      have .callee h hv := h
      have := h.accounts_supply <| .intro hv <| .nil hw
      simpa [closeCall] using this
    case arg =>
      have ⟨ds, vs, as, bs, hd, hv, ha, hb, hc⟩ := h.arg_inv
      have := hd.accounts_supply <| .intro hv <| .call ha hb hw
      simpa [closeCall, hc] using this
    all_goals trivial

theorem Opened.accounts_closeLiteral {fs : List (Frame C)} {l : Literal} {cs ws bs ms : List Char}
    (h : Opened compile fs cs) (hl : l.IsProper) (hw : IsBlank ws) (hb : Quoted l.delimiter bs ms) :
    (closeLiteral compile fs l (Bytes.ofChars ms)).Accounts compile
      (cs ++ (ws ++ (l.opener :: bs ++ [l.delimiter]))) := by
  cases l
  case str => exact h.accounts_supply <| .intro hw <| .str hl hb
  case macroName => exact h.accounts_supply <| .intro hw <| .macroName hb
  case lambda =>
    simp only [closeLiteral]
    split
    case h_1 hc => exact h.accounts_supply <| .intro hw <| .lambda hb hc
    case h_2 => trivial

theorem Opened.accounts_start {fs : List (Frame C)} {cs ws : List Char} (h : Opened compile fs cs)
    (hw : IsBlank ws) (c : Char) : (start fs c).Accounts compile (cs ++ ws ++ [c]) := by
  have inside {l : Literal} (hl : l.IsProper) :
      Reached compile ⟨fs, .inside l []⟩ (cs ++ ws ++ [l.opener]) :=
    List.append_assoc cs ws _ ▸ .inside hl h hw .nil
  have between {f : Frame C} (hf : Opened compile (f :: fs) (cs ++ (ws ++ [c]))) :
      Reached compile ⟨f :: fs, .between⟩ (cs ++ ws ++ [c]) := by
    have := Reached.between hf .nil
    rwa [List.append_nil, ← List.append_assoc] at this
  simp only [start]
  repeat' split
  case isTrue hs =>
    rw [List.append_assoc]
    refine .between h <| isBlank_append.mpr ⟨hw, ?_⟩
    exact List.forall_mem_singleton.mpr (isSpace_iff.mp hs)
  case isTrue hq => exact inside (l := .str c) hq
  case isTrue hc => exact between <| hc ▸ h.test hw
  case isTrue hc => exact hc ▸ inside (l := .lambda) trivial
  case isTrue hc => exact between <| hc ▸ h.callee hw
  case isTrue hc => exact hc ▸ inside (l := .macroName) trivial
  case isTrue hc => exact hc ▸ h.accounts_closeCall hw
  case isFalse => trivial

theorem Reached.accounts_step {r : Reader C} {cs : List Char} (h : Reached compile r cs) (c : Char) :
    (r.step compile c).Accounts compile (cs ++ [c]) := by
  cases h
  case between h hw => exact h.accounts_start hw c
  case inside hl h hw hb =>
    simp only [step]
    repeat' split
    case isTrue hc => simpa [hc] using h.accounts_closeLiteral hl hw hb
    case isTrue hc => simpa [hc, Progress.Accounts] using Reached.escaped hl h hw hb
    case isFalse hd hc =>
      have hb := hb.snoc_plain hd hc
      rw [← List.reverse_cons] at hb
      simpa [Progress.Accounts] using Reached.inside hl h hw hb
  case escaped hl h hw hb =>
    simp only [step]
    split
    case h_1 hm =>
      have hb := hb.snoc_escaped <| escape_of_unescape? hm
      rw [← List.reverse_cons] at hb
      simpa [Progress.Accounts] using Reached.inside hl h hw hb
    case h_2 => trivial

theorem Reached.accounts_runChars {r : Reader C} {cs : List Char} (h : Reached compile r cs)
    (ds : List Char) : ∃ used, ds = used ++ (r.runChars compile ds).2 ∧
      (r.runChars compile ds).1.Accounts compile (cs ++ used) := by
  induction ds generalizing r cs
  case nil => exact ⟨[], rfl, (List.append_nil cs).symm ▸ h⟩
  case cons c ds hi =>
    have ha := h.accounts_step c
    rw [runChars_cons]
    cases hs : r.step compile c <;> rw [hs] at ha
    case more =>
      have ⟨used, hd, hn⟩ := hi ha
      refine ⟨c :: used, congrArg (c :: ·) hd, ?_⟩
      rwa [List.append_assoc] at hn
    all_goals exact ⟨[c], rfl, ha⟩

theorem nested_of_runChars {cs rest : List Char} {e : Expr C}
    (h : Reader.runChars compile {} cs = (.done e, rest)) :
    ∃ used, cs = used ++ rest ∧ Nested compile used e := by
  have ⟨used, hc, hn⟩ := (Reached.fresh compile).accounts_runChars cs
  rw [h] at hc hn
  exact ⟨used, hc, hn⟩

theorem reached_of_runChars {cs rest : List Char} {r : Reader C}
    (h : Reader.runChars compile {} cs = (.more r, rest)) : Reached compile r cs := by
  have ⟨used, hc, hr⟩ := (Reached.fresh compile).accounts_runChars cs
  rw [h, runChars_of_more h, List.append_nil] at hc
  rw [h, ← hc] at hr
  exact hr

end Soundness

end Reader

namespace Expr

open Grammar

variable {C : Type} {compile : Bytes → Except Fault C}

theorem readChars_eq_ok_iff_blank {cs : List Char} {e : Expr C} :
    readChars compile cs = .ok e ↔
      ∃ rest, Reader.runChars compile {} cs = (.done e, rest) ∧ IsBlank rest := by
  rcases hr : Reader.runChars compile {} cs with ⟨p, rest⟩
  cases p
  case done e' =>
    constructor
    case mp =>
      intro h
      cases hb : rest.dropWhile Reader.isSpace
      case nil =>
        simp only [readChars, hr, hb, Except.ok.injEq] at h
        exact ⟨rest, by rw [h], IsBlank.dropWhile_eq_nil.mp hb⟩
      case cons => simp [readChars, hr, hb] at h
    case mpr =>
      rintro ⟨_, ⟨⟩, hb⟩
      simp only [readChars, hr, IsBlank.dropWhile_eq_nil.mpr hb]
  all_goals simp [readChars, hr]

theorem readChars_eq_ok_iff {cs : List Char} {e : Expr C} :
    readChars compile cs = .ok e ↔
      ∃ ws ds vs, cs = ws ++ ds ++ vs ∧ IsBlank ws ∧ Writes compile ds e ∧ IsBlank vs := by
  constructor
  case mp =>
    intro h
    have ⟨rest, hr, hv⟩ := readChars_eq_ok_iff_blank.mp h
    have ⟨used, hc, hn⟩ := Reader.nested_of_runChars hr
    cases hn
    case intro hw hd => exact ⟨_, _, _, hc, hw, hd, hv⟩
  case mpr =>
    intro ⟨ws, ds, vs, hc, hw, hd, hv⟩
    exact readChars_eq_ok_iff_blank.mpr
      ⟨vs, hc ▸ Reader.runChars_nested (.intro hw hd) [] vs, hv⟩

theorem isWhole_of_read {text : Bytes} {e : Expr C} (h : read compile text = .ok e) : e.isWhole := by
  rw [read_eq_readChars, readChars_eq_ok_iff] at h
  have ⟨_, _, _, _, _, hw, _⟩ := h
  exact hw.isWhole

theorem read_eq_ok_iff_writes (compile : Bytes → Except Fault C) (text : Bytes) (e : Expr C) :
    read compile text = .ok e ↔
      ∃ ws cs vs, text.chars = ws ++ cs ++ vs ∧ IsBlank ws ∧ Writes compile cs e ∧ IsBlank vs := by
  rw [read_eq_readChars, readChars_eq_ok_iff]

end Expr
end TapeShell
