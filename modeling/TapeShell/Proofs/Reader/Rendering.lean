import TapeShell.Machine.Scripted
import TapeShell.Proofs.Reader.Grammar
import TapeShell.Proofs.Text.Utf8
import TapeShell.Proofs.Wire.Arguments

namespace TapeShell

open Grammar

variable {C : Type}

def Grammar.escaped (delimiter : Char) (cs : List Char) : List Char :=
  cs.flatMap fun c => if c = '\\' ∨ c = delimiter then ['\\', c] else [c]

theorem Grammar.quoted_escaped (delimiter : Char) (cs : List Char) :
    Quoted delimiter (escaped delimiter cs) cs := by
  induction cs
  case nil => exact .nil
  case cons c cs hi =>
    rw [escaped, List.flatMap_cons, ← escaped]
    split
    case isTrue h =>
      rcases h with rfl | rfl
      case inl => exact .escaped .backslash hi
      case inr => exact .escaped .delimiter hi
    case isFalse h =>
      have ⟨hb, hd⟩ := not_or.mp h
      exact .plain hd hb hi

namespace Expr

section Render

variable [Code C]

mutual

-- The characters of an expression. Before each part of a conditional or a call, and before the end of a
-- call, there is a `gap`.
def render (gap : List Char) : Expr C → List Char
  | .nil => ['(', ')']
  | .str text => '\'' :: escaped '\'' text.chars ++ ['\'']
  | .cond test yes no =>
    '?' :: (gap ++ test.render gap) ++ (gap ++ yes.render gap) ++ (gap ++ no.render gap)
  | .lambda code => '`' :: escaped '\'' (Code.source code).chars ++ ['\'']
  | .call callee args => '(' :: (gap ++ callee.render gap) ++ renderArgs gap args ++ gap ++ [')']
  | .macroName name => '@' :: escaped '~' name.chars ++ ['~']
  | .hole => []

def renderArgs (gap : List Char) : List (Expr C) → List Char
  | [] => []
  | arg :: args => (gap ++ arg.render gap) ++ renderArgs gap args

end

def renderAll (gap : List Char) (items : List (List Char × Expr C)) (last : List Char) : List Char :=
  items.flatMap (fun item => item.1 ++ item.2.render gap) ++ last

structure Compiles (compile : Bytes → Except Fault C) (code : C) : Prop where
  source  : (Code.source code).isUtf8
  compile : compile (Code.source code) = .ok code

structure Renders (compile : Bytes → Except Fault C) (e : Expr C) : Prop where
  whole : e.isWhole
  texts : ∀ text ∈ e.texts, text.isUtf8
  codes : ∀ code ∈ e.codes, Compiles compile code

end Render

end Expr

namespace Grammar

open TapeShell.Expr

variable [Code C] {compile : Bytes → Except Fault C} {gap : List Char}

mutual

theorem writes_render (hg : IsBlank gap) : (e : Expr C) → e.isWhole → (∀ text ∈ e.texts, text.isUtf8) →
    (∀ code ∈ e.codes, Compiles compile code) → Writes compile (e.render gap) e
  | .nil, _, _, _ => .nil .nil
  | .str text, _, ht, _ => by
    have hw : Writes compile _ (.str (Bytes.ofChars text.chars)) :=
      .str (.inl rfl) (quoted_escaped '\'' text.chars)
    rwa [Bytes.ofChars_chars (ht text (List.mem_singleton_self text))] at hw
  | .macroName name, _, ht, _ => by
    have hw : Writes compile _ (.macroName (Bytes.ofChars name.chars)) :=
      .macroName (quoted_escaped '~' name.chars)
    rwa [Bytes.ofChars_chars (ht name (List.mem_singleton_self name))] at hw
  | .lambda code, _, _, hc => by
    have ⟨hs, hc⟩ := List.forall_mem_singleton.mp hc
    refine .lambda (quoted_escaped '\'' (Code.source code).chars) ?_
    rw [Bytes.ofChars_chars hs, hc]
  | .cond test yes no, hw, ht, hc => by
    simp only [isWhole, Bool.and_eq_true] at hw
    simp only [texts, List.forall_mem_append] at ht
    simp only [codes, List.forall_mem_append] at hc
    exact .cond (.intro hg (writes_render hg test hw.left.left ht.left hc.left))
      (.intro hg (writes_render hg yes hw.left.right ht.right.left hc.right.left))
      (.intro hg (writes_render hg no hw.right ht.right.right hc.right.right))
  | .call callee args, hw, ht, hc => by
    simp only [isWhole, Bool.and_eq_true] at hw
    simp only [texts, List.forall_mem_append] at ht
    simp only [codes, List.forall_mem_append] at hc
    exact .call (.intro hg (writes_render hg callee hw.left ht.left hc.left))
      (nestedAll_renderArgs hg args hw.right ht.right hc.right) hg

theorem nestedAll_renderArgs (hg : IsBlank gap) : (args : List (Expr C)) → allWhole args →
    (∀ text ∈ textsAll args, text.isUtf8) → (∀ code ∈ codesAll args, Compiles compile code) →
      NestedAll compile (renderArgs gap args) args
  | [], _, _, _ => .nil
  | arg :: args, hw, ht, hc => by
    simp only [allWhole, Bool.and_eq_true] at hw
    simp only [textsAll, List.forall_mem_append] at ht
    simp only [codesAll, List.forall_mem_append] at hc
    exact .cons (.intro hg (writes_render hg arg hw.left ht.left hc.left))
      (nestedAll_renderArgs hg args hw.right ht.right hc.right)

end

end Grammar

namespace Reader

theorem run_map_ofChar {compile : Bytes → Except Fault C} (r : Reader C) (cs : List Char) :
    r.run compile (cs.map .ofChar) =
      ((r.runChars compile cs).1, (r.runChars compile cs).2.map .ofChar) := by
  induction cs generalizing r
  case nil => rfl
  case cons c cs hi =>
    rw [List.map_cons, run, runChars_cons, Rune.ofChar]
    cases r.step compile c
    case more r => exact hi r
    all_goals rfl

end Reader

namespace Expr

variable {compile : Bytes → Except Fault C} {failure : Option Fault}

theorem parse_of_done {cs rest : List Char} {e : Expr C}
    (h : Reader.runChars compile {} cs = (.done e, rest)) :
    parse compile ⟨Bytes.ofChars cs, failure⟩ = (.ok e, ⟨Bytes.ofChars rest, failure⟩) := by
  rw [parse_eq_readFrom, Reader.readFrom, Bytes.runes_ofChars, Reader.run_map_ofChar, h]
  exact congrArg (fun unread => (Except.ok e, Source.mk unread failure)) (Bytes.ofRunes_map_ofChar rest)

theorem parse_blank {ws : List Char} (h : IsBlank ws) :
    parse compile ⟨Bytes.ofChars ws, none⟩ = (.error .empty, ⟨[], none⟩) := by
  have hr : Reader.runChars compile {} (ws ++ []) = (.more {}, []) := Reader.runChars_blank h []
  rw [List.append_nil] at hr
  rw [parse_eq_readFrom, Reader.readFrom, Bytes.runes_ofChars, Reader.run_map_ofChar, hr]
  rfl

def parseTimes (compile : Bytes → Except Fault C) : Nat → Source → List (Except Fault (Expr C))
  | 0, _ => []
  | n + 1, s => (parse compile s).1 :: parseTimes compile n (parse compile s).2

theorem parseTimes_blank {ws : List Char} (h : IsBlank ws) (n : Nat) :
    parseTimes compile n ⟨Bytes.ofChars ws, none⟩ = List.replicate n (.error .empty) := by
  induction n generalizing ws
  case zero => rfl
  case succ n hi =>
    rw [parseTimes, parse_blank h, List.replicate_succ]
    exact congrArg _ (hi .nil)

theorem parseTimes_renderAll [Code C] {gap last : List Char} {items : List (List Char × Expr C)}
    (hg : IsBlank gap) (hl : IsBlank last)
    (hi : ∀ item ∈ items, IsBlank item.1 ∧ item.2.Renders compile) (n : Nat) :
    parseTimes compile (items.length + n) ⟨Bytes.ofChars (renderAll gap items last), none⟩ =
      items.map (.ok ·.2) ++ List.replicate n (.error .empty) := by
  induction items
  case nil =>
    rw [List.length_nil, Nat.zero_add]
    exact parseTimes_blank hl n
  case cons item items ih =>
    have ⟨⟨hb, he⟩, hs⟩ := List.forall_mem_cons.mp hi
    have hn : Nested compile (item.1 ++ item.2.render gap) item.2 :=
      .intro hb (writes_render hg item.2 he.whole he.texts he.codes)
    have hr := Reader.runChars_nested hn [] (renderAll gap items last)
    have ha : renderAll gap (item :: items) last =
        item.1 ++ item.2.render gap ++ renderAll gap items last := by
      rw [renderAll, List.flatMap_cons, List.append_assoc, ← renderAll]
    rw [List.length_cons, Nat.succ_add, parseTimes, ha, parse_of_done hr, ih hs]
    rfl

-- Quotes stand next to quotes, with both delimiters and a backslash in literals.
theorem parseTimes_renderAll_adjacent :
    let call : Expr Bytes :=
      .call (.lambda "+") [.str "it's", .cond .nil (.macroName "a~b") (.str "\\")]
    let text : Bytes := "(`+''it\\'s'?()@a\\~b~'\\\\')() \n''\t"
    call.Renders Script.compile ∧
    Bytes.ofChars (renderAll [] [([], call), ([], .nil), ([' ', '\n'], .str "")] ['\t']) = text ∧
    parseTimes Script.compile 4 ⟨text, none⟩ = [.ok call, .ok .nil, .ok (.str ""), .error .empty] := by
  intro call text
  have hc : call.Renders Script.compile :=
    ⟨rfl, by decide +kernel, List.forall_mem_singleton.mpr ⟨by decide +kernel, rfl⟩⟩
  have ht : Bytes.ofChars (renderAll [] [([], call), ([], .nil), ([' ', '\n'], .str "")] ['\t']) = text := by
    decide +kernel
  refine ⟨hc, ht, ht ▸ parseTimes_renderAll .nil ?last ?items 1⟩
  case last => simp [IsBlank]
  case items =>
    simp only [List.forall_mem_cons]
    refine ⟨⟨.nil, hc⟩, ⟨.nil, rfl, nofun, nofun⟩, ⟨by simp [IsBlank], rfl, ?_, nofun⟩, nofun⟩
    exact List.forall_mem_singleton.mpr rfl

end Expr
end TapeShell
