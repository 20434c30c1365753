import TapeShell.Proofs.Wire.Arguments

namespace TapeShell

open Bencode Tape

namespace Bencode

theorem encodeBytes_append_inj {a b r s : Bytes} (h : encodeBytes a ++ r = encodeBytes b ++ s) :
    a = b ∧ r = s := by
  simp only [encodeBytes, List.append_assoc, List.cons_append] at h
  obtain ⟨hlength, hcontent⟩ := Bytes.ofNat_append_inj (by decide) h
  exact List.append_inj hcontent hlength

theorem encodeTagged_append_inj {tag p q r s : Bytes}
    (h : encodeTagged tag p ++ r = encodeTagged tag q ++ s) :
    p ++ 'e'.toUInt8 :: r = q ++ 'e'.toUInt8 :: s := by
  simp only [encodeTagged, List.append_assoc, List.cons_append] at h
  exact List.append_cancel_left (List.cons.inj h).right

theorem encodeList_append_inj {a b r s : Bytes} (h : encodeList [a] ++ r = encodeList [b] ++ s) :
    a ++ 'e'.toUInt8 :: r = b ++ 'e'.toUInt8 :: s := by
  simp only [encodeList, List.flatten_singleton, List.append_assoc, List.cons_append] at h
  exact (List.cons.inj h).right

theorem encodeList_flatten (items : List Bytes) : encodeList [items.flatten] = encodeList items := by
  rw [encodeList, List.flatten_singleton, encodeList]

end Bencode

namespace Wire

-- What stands by itself among the bytes of arguments. An operation does, and the code that it belongs to does
-- not.
inductive Token where
  | str (text : Bytes)
  | op (op : Op)
  | macroName (name : Bytes)
  | cond (parts : List Token)
  | call (parts : List Token)

mutual

def tokens : Expr Program → List Token
  | .nil => [.str []]
  | .str text => [.str text]
  | .cond test yes no => [.cond (tokens test ++ (tokens yes ++ tokens no))]
  | .lambda code => code.map .op
  | .call callee args => [.call (tokens callee ++ skeleton args)]
  | .macroName name => [.macroName name]
  | .hole => []

def skeleton : List (Expr Program) → List Token
  | [] => []
  | arg :: args => tokens arg ++ skeleton args

end

mutual

def Token.encode : Token → Bytes
  | .str text => encodeBytes text
  | .op op => [op.char.toUInt8]
  | .macroName name => encodeTagged "macro" (encodeBytes name)
  | .cond parts => encodeTagged "if" (encodeList [encodeTokens parts])
  | .call parts => encodeTagged "call" (encodeList [encodeTokens parts])

def encodeTokens : List Token → Bytes
  | [] => []
  | t :: ts => t.encode ++ encodeTokens ts

end

section Encoding

theorem encodeTokens_singleton (t : Token) : encodeTokens [t] = t.encode := by
  rw [encodeTokens, encodeTokens, List.append_nil]

theorem encodeTokens_append (ts us : List Token) :
    encodeTokens (ts ++ us) = encodeTokens ts ++ encodeTokens us := by
  induction ts
  case nil => rfl
  case cons t ts ih => rw [List.cons_append, encodeTokens, encodeTokens, ih, List.append_assoc]

theorem encodeTokens_ops (p : Program) : encodeTokens (p.map .op) = p.source := by
  induction p
  case nil => rfl
  case cons op p ih =>
    rw [List.map_cons, encodeTokens, ih]
    rfl

mutual

theorem encode_eq_tokens : (e : Expr Program) → e.isWhole → encode e = .ok (encodeTokens (tokens e))
  | .nil, _ => by rw [tokens, encodeTokens_singleton]; rfl
  | .str _, _ => by rw [tokens, encodeTokens_singleton]; rfl
  | .macroName _, _ => by rw [tokens, encodeTokens_singleton]; rfl
  | .lambda code, _ => by rw [tokens, encodeTokens_ops]; rfl
  | .cond test yes no, hw => by
    simp only [Expr.isWhole, Bool.and_eq_true] at hw
    have htest := encode_eq_tokens test hw.left.left
    have hyes := encode_eq_tokens yes hw.left.right
    have hno := encode_eq_tokens no hw.right
    rw [encode_cond htest hyes hno, tokens, encodeTokens_singleton, Token.encode, encodeTokens_append,
      encodeTokens_append, ← encodeList_flatten]
    simp
  | .call callee args, hw => by
    simp only [Expr.isWhole, Bool.and_eq_true] at hw
    have hcallee := encode_eq_tokens callee hw.left
    obtain ⟨items, hitems, hflatten⟩ := encodeAll_eq_skeleton args hw.right
    rw [encode_call hcallee hitems, tokens, encodeTokens_singleton, Token.encode, encodeTokens_append,
      ← encodeList_flatten, List.flatten_cons, hflatten]

theorem encodeAll_eq_skeleton : (args : List (Expr Program)) → Expr.allWhole args →
    ∃ items, encodeAll args = .ok items ∧ items.flatten = encodeTokens (skeleton args)
  | [], _ => ⟨[], rfl, rfl⟩
  | arg :: args, hw => by
    simp only [Expr.allWhole, Bool.and_eq_true] at hw
    have harg := encode_eq_tokens arg hw.left
    obtain ⟨items, hitems, hflatten⟩ := encodeAll_eq_skeleton args hw.right
    refine ⟨_, encodeAll_cons harg hitems, ?_⟩
    rw [List.flatten_cons, hflatten, skeleton, encodeTokens_append]

end

theorem encodeArgs_eq_skeleton (args : List (Expr Program)) (hw : Expr.allWhole args) :
    encodeArgs args = .ok (encodeList [encodeTokens (skeleton args)]) := by
  obtain ⟨items, hitems, hflatten⟩ := encodeAll_eq_skeleton args hw
  rw [encodeArgs_of_encodeAll hitems, ← encodeList_flatten, hflatten]

end Encoding

section Reading

open TapeShell.Expr (Kind)

def Token.kind : Token → Kind
  | .str _ => .str
  | .op _ => .lambda
  | .macroName _ => .macroName
  | .cond _ => .cond
  | .call _ => .call

-- The kind of the token that bytes start with, unless they end a list. The names of the three records differ
-- in their lengths.
def leadingKind? : Bytes → Option Kind
  | [] => none
  | b :: bs =>
    if Bytes.isDigit b then some .str
    else if b = 'e'.toUInt8 then none
    else if b = 'd'.toUInt8 then
      if bs.head? = some '2'.toUInt8 then some .cond
      else if bs.head? = some '4'.toUInt8 then some .call
      else some .macroName
    else some .lambda

theorem leadingKind?_encodeBytes (content rest : Bytes) :
    leadingKind? (encodeBytes content ++ rest) = some .str := by
  rw [encodeBytes, List.append_assoc]
  cases hlength : Bytes.ofNat content.length
  case nil => exact absurd hlength (Bytes.ofNat_ne_nil _)
  case cons b bs =>
    have hdigit : Bytes.isDigit b := Bytes.isDigit_of_mem_ofNat b (hlength ▸ List.mem_cons_self)
    exact if_pos hdigit

theorem leadingKind?_encode (t : Token) (rest : Bytes) : leadingKind? (t.encode ++ rest) = some t.kind := by
  cases t
  case str text => exact leadingKind?_encodeBytes text rest
  case op op => cases op <;> rfl
  all_goals rfl

theorem Token.kind_eq {t u : Token} {r s : Bytes} (h : t.encode ++ r = u.encode ++ s) : t.kind = u.kind := by
  have hkind := congrArg leadingKind? h
  rw [leadingKind?_encode, leadingKind?_encode] at hkind
  exact Option.some.inj hkind

theorem encodeTokens_cons_ne (t : Token) (ts : List Token) (r s : Bytes) :
    encodeTokens (t :: ts) ++ r ≠ 'e'.toUInt8 :: s := by
  intro h
  have hkind := congrArg leadingKind? h
  rw [encodeTokens, List.append_assoc, leadingKind?_encode] at hkind
  cases hkind

mutual

-- Two tokens that the same bytes start with are of one kind, so they are compared part by part.
theorem Token.encode_append_inj : (t u : Token) → {r s : Bytes} → t.encode ++ r = u.encode ++ s →
    t = u ∧ r = s
  | .str a, u, r, s, h => by
    have hkind := Token.kind_eq h
    cases u <;> cases hkind
    case str b =>
      have ⟨htext, hrest⟩ := encodeBytes_append_inj h
      exact ⟨by rw [htext], hrest⟩
  | .op a, u, r, s, h => by
    have hkind := Token.kind_eq h
    cases u <;> cases hkind
    case op b =>
      have ⟨hchar, hrest⟩ := List.cons.inj h
      exact ⟨by rw [Op.toUInt8_char_inj hchar], hrest⟩
  | .macroName a, u, r, s, h => by
    have hkind := Token.kind_eq h
    cases u <;> cases hkind
    case macroName b =>
      have ⟨hname, hrest⟩ := encodeBytes_append_inj (encodeTagged_append_inj h)
      exact ⟨by rw [hname], (List.cons.inj hrest).right⟩
  | .cond ts, u, r, s, h => by
    have hkind := Token.kind_eq h
    cases u <;> cases hkind
    case cond us =>
      have hparts := encodeList_append_inj (encodeTagged_append_inj h)
      have ⟨heq, hrest⟩ := encodeTokens_append_inj ts us hparts
      exact ⟨by rw [heq], (List.cons.inj hrest).right⟩
  | .call ts, u, r, s, h => by
    have hkind := Token.kind_eq h
    cases u <;> cases hkind
    case call us =>
      have hparts := encodeList_append_inj (encodeTagged_append_inj h)
      have ⟨heq, hrest⟩ := encodeTokens_append_inj ts us hparts
      exact ⟨by rw [heq], (List.cons.inj hrest).right⟩

theorem encodeTokens_append_inj : (ts us : List Token) → {r s : Bytes} →
    encodeTokens ts ++ 'e'.toUInt8 :: r = encodeTokens us ++ 'e'.toUInt8 :: s → ts = us ∧ r = s
  | [], [], _, _, h => ⟨rfl, (List.cons.inj h).right⟩
  | [], u :: us, _, _, h => absurd h.symm (encodeTokens_cons_ne u us _ _)
  | t :: ts, [], _, _, h => absurd h (encodeTokens_cons_ne t ts _ _)
  | t :: ts, u :: us, r, s, h => by
    rw [encodeTokens, encodeTokens, List.append_assoc, List.append_assoc] at h
    have ⟨hhead, htail⟩ := Token.encode_append_inj t u h
    have ⟨heq, hrest⟩ := encodeTokens_append_inj ts us htail
    exact ⟨by rw [hhead, heq], hrest⟩

end

end Reading

theorem encodeArgs_eq_iff_skeleton (args others : List (Expr Program)) (hw : Expr.allWhole args)
    (hw' : Expr.allWhole others) :
    ∃ data data', encodeArgs args = .ok data ∧ encodeArgs others = .ok data' ∧
      (data = data' ↔ skeleton args = skeleton others) := by
  refine ⟨_, _, encodeArgs_eq_skeleton args hw, encodeArgs_eq_skeleton others hw', ?_⟩
  constructor
  case mp =>
    intro h
    have htokens := encodeList_append_inj (congrArg (· ++ []) h)
    exact (encodeTokens_append_inj _ _ htokens).left
  case mpr =>
    intro h
    rw [h]

-- Adjacent code merges, empty code vanishes and nil is the empty string, also within a call. Code does not
-- merge with code outside the call that it is in.
theorem encodeArgs_eq_iff_skeleton_merged :
    (∃ data, encodeArgs (C := Program)
        [.lambda [.inc], .lambda [.put], .call .nil [.lambda [], .str "a"]] = .ok data ∧
      encodeArgs (C := Program)
        [.lambda [.inc, .put], .call (.str []) [.str "a", .lambda []]] = .ok data) ∧
    ¬∃ data, encodeArgs (C := Program) [.call (.lambda [.inc]) [], .lambda [.put]] = .ok data ∧
      encodeArgs (C := Program) [.call (.lambda [.inc, .put]) []] = .ok data := by
  constructor
  case left =>
    have ⟨data, data', h, h', hiff⟩ := encodeArgs_eq_iff_skeleton
      [.lambda [.inc], .lambda [.put], .call .nil [.lambda [], .str "a"]]
      [.lambda [.inc, .put], .call (.str []) [.str "a", .lambda []]] rfl rfl
    have heq : data = data' := hiff.mpr rfl
    exact ⟨data, h, heq ▸ h'⟩
  case right =>
    rintro ⟨data, h₁, h₂⟩
    have ⟨data₁, data₂, h₁', h₂', hiff⟩ := encodeArgs_eq_iff_skeleton
      [.call (.lambda [.inc]) [], .lambda [.put]] [.call (.lambda [.inc, .put]) []] rfl rfl
    cases h₁.symm.trans h₁'
    cases h₂.symm.trans h₂'
    cases hiff.mp rfl

end Wire
end TapeShell
