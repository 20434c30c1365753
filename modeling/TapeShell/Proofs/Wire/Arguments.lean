import TapeShell.Deck
import TapeShell.Proofs.Bencode.Canonical

namespace TapeShell

open Bencode Tape

namespace Expr

variable {C : Type}

mutual

def codes : Expr C → List C
  | .cond test yes no => test.codes ++ (yes.codes ++ no.codes)
  | .lambda code => [code]
  | .call callee args => callee.codes ++ codesAll args
  | _ => []

def codesAll : List (Expr C) → List C
  | [] => []
  | arg :: args => arg.codes ++ codesAll args

end

mutual

def texts : Expr C → List Bytes
  | .str text => [text]
  | .cond test yes no => test.texts ++ (yes.texts ++ no.texts)
  | .call callee args => callee.texts ++ textsAll args
  | .macroName name => [name]
  | _ => []

def textsAll : List (Expr C) → List Bytes
  | [] => []
  | arg :: args => arg.texts ++ textsAll args

end

end Expr

namespace Wire

variable {C : Type}

mutual

def value? : Expr C → Option Value
  | .nil => some (.bytes [])
  | .str text => some (.bytes text)
  | .cond test yes no =>
    some (.dict [("if", .list ((value? test).toList ++ ((value? yes).toList ++ (value? no).toList)))])
  | .call callee args => some (.dict [("call", .list ((value? callee).toList ++ values args))])
  | .macroName name => some (.dict [("macro", .bytes name)])
  | .lambda _ | .hole => none

def values : List (Expr C) → List Value
  | [] => []
  | arg :: args => (value? arg).toList ++ values args

end

section Encoding

variable [Code C]

theorem encode_cond {test yes no : Expr C} {a b c : Bytes} (ha : encode test = .ok a)
    (hb : encode yes = .ok b) (hc : encode no = .ok c) :
    encode (.cond test yes no) = .ok (encodeTagged "if" (encodeList [a, b, c])) := by
  rw [encode, ha, hb, hc]
  rfl

theorem encode_call {callee : Expr C} {args : List (Expr C)} {item : Bytes} {items : List Bytes}
    (h : encode callee = .ok item) (hs : encodeAll args = .ok items) :
    encode (.call callee args) = .ok (encodeTagged "call" (encodeList (item :: items))) := by
  rw [encode, h, hs]
  rfl

theorem encodeAll_cons {arg : Expr C} {args : List (Expr C)} {item : Bytes} {items : List Bytes}
    (h : encode arg = .ok item) (hs : encodeAll args = .ok items) :
    encodeAll (arg :: args) = .ok (item :: items) := by
  rw [encodeAll, h, hs]
  rfl

theorem encodeArgs_of_encodeAll {args : List (Expr C)} {items : List Bytes}
    (h : encodeAll args = .ok items) : encodeArgs args = .ok (encodeList items) := by
  rw [encodeArgs, h]
  rfl

theorem exists_encode_cond_iff {test yes no : Expr C} :
    (∃ item, encode (.cond test yes no) = .ok item) ↔
      (∃ a, encode test = .ok a) ∧ (∃ b, encode yes = .ok b) ∧ ∃ c, encode no = .ok c := by
  rw [encode]
  cases encode test <;> cases encode yes <;> cases encode no
  all_goals simp [bind, Except.bind, pure, Except.pure]

theorem exists_encode_call_iff {callee : Expr C} {args : List (Expr C)} :
    (∃ item, encode (.call callee args) = .ok item) ↔
      (∃ item, encode callee = .ok item) ∧ ∃ items, encodeAll args = .ok items := by
  rw [encode]
  cases encode callee <;> cases encodeAll args
  all_goals simp [bind, Except.bind, pure, Except.pure]

theorem exists_encodeAll_cons_iff {arg : Expr C} {args : List (Expr C)} :
    (∃ items, encodeAll (arg :: args) = .ok items) ↔
      (∃ item, encode arg = .ok item) ∧ ∃ items, encodeAll args = .ok items := by
  rw [encodeAll]
  cases encode arg <;> cases encodeAll args
  all_goals simp [bind, Except.bind, pure, Except.pure]

mutual

theorem exists_encode_iff : (e : Expr C) →
    ((∃ item, encode e = .ok item) ↔
      e.isWhole ∧ ∀ code ∈ e.codes, ∃ bytes, Code.marshal code = .ok bytes)
  | .nil => by simp [encode, Expr.isWhole, Expr.codes]
  | .str _ => by simp [encode, Expr.isWhole, Expr.codes]
  | .macroName _ => by simp [encode, Expr.isWhole, Expr.codes]
  | .hole => by simp [encode, Expr.isWhole]
  | .lambda code => by simp [encode, Expr.isWhole, Expr.codes]
  | .cond test yes no => by
    rw [exists_encode_cond_iff, exists_encode_iff test, exists_encode_iff yes, exists_encode_iff no]
    simp only [Expr.isWhole, Expr.codes, List.forall_mem_append, Bool.and_eq_true]
    grind only
  | .call callee args => by
    rw [exists_encode_call_iff, exists_encode_iff callee, exists_encodeAll_iff args]
    simp only [Expr.isWhole, Expr.codes, List.forall_mem_append, Bool.and_eq_true]
    exact and_and_and_comm

theorem exists_encodeAll_iff : (args : List (Expr C)) →
    ((∃ items, encodeAll args = .ok items) ↔
      Expr.allWhole args ∧ ∀ code ∈ Expr.codesAll args, ∃ bytes, Code.marshal code = .ok bytes)
  | [] => by simp [encodeAll, Expr.allWhole, Expr.codesAll]
  | arg :: args => by
    rw [exists_encodeAll_cons_iff, exists_encode_iff arg, exists_encodeAll_iff args]
    simp only [Expr.allWhole, Expr.codesAll, List.forall_mem_append, Bool.and_eq_true]
    exact and_and_and_comm

end

theorem exists_encode (hm : ∀ code : C, ∃ bytes, Code.marshal code = .ok bytes) (e : Expr C)
    (hw : e.isWhole) : ∃ item, encode e = .ok item :=
  (exists_encode_iff e).mpr ⟨hw, fun code _ => hm code⟩

theorem exists_encodeAll (hm : ∀ code : C, ∃ bytes, Code.marshal code = .ok bytes)
    (args : List (Expr C)) (hw : Expr.allWhole args) : ∃ items, encodeAll args = .ok items :=
  (exists_encodeAll_iff args).mpr ⟨hw, fun code _ => hm code⟩

end Encoding

theorem run_encodeTagged {tag : Bytes} (h : tag.length ≤ 2 ^ 31 - 1) (payload : Bytes)
    (frames : List Frame) (items : List Value) (rest : Bytes) :
    Decoder.run ⟨.list items :: frames, .value⟩ (encodeTagged tag payload ++ rest) =
      Decoder.run ⟨.entry [] tag :: .list items :: frames, .value⟩ (payload ++ 'e'.toUInt8 :: rest) := by
  rw [encodeTagged, List.append_assoc, List.append_assoc, List.cons_append, Decoder.run_cons]
  change Decoder.run ⟨.dict [] :: .list items :: frames, .value⟩ _ = _
  rw [Decoder.run_encodeBytes h]
  rfl

-- `Reads item code vs`: inside a list, a decoder takes the bytes `item` for the values `vs` if there is
-- no `code` in them, and otherwise stops at the first operation of it.
structure Reads (item : Bytes) (code : Program) (vs : List Value) : Prop where
  values : code = [] → ∀ frames items rest,
    Decoder.run ⟨.list items :: frames, .value⟩ (item ++ rest) =
      Decoder.run ⟨.list (vs.reverse ++ items) :: frames, .value⟩ rest
  stops : ∀ op ops, code = op :: ops → ∀ frames items rest,
    (Decoder.run ⟨.list items :: frames, .value⟩ (item ++ rest)).1 =
      .failed (.unexpectedByte op.char.toUInt8)

namespace Reads

theorem nil : Reads [] [] [] where
  values _ _ _ _ := rfl
  stops := nofun

theorem append {a b : Bytes} {p q : Program} {vs us : List Value} (ha : Reads a p vs)
    (hb : Reads b q us) : Reads (a ++ b) (p ++ q) (vs ++ us) where
  values h frames items rest := by
    have ⟨hp, hq⟩ := List.append_eq_nil_iff.mp h
    simp [ha.values hp, hb.values hq]
  stops op ops h frames items rest := by
    rw [List.append_assoc]
    rcases List.append_eq_cons_iff.mp h with ⟨hp, hq⟩ | ⟨ps, hp, _⟩
    · rw [ha.values hp]
      exact hb.stops op ops hq ..
    · exact ha.stops op ps hp ..

theorem source (p : Program) : Reads p.source p [] where
  values h _ _ _ := by rw [h]; rfl
  stops op ops h frames items rest := by
    rw [h, Program.source, List.map_cons, List.cons_append, Decoder.run_cons]
    cases op <;> rfl

theorem encodeBytes {content : Bytes} (h : content.length ≤ 2 ^ 31 - 1) :
    Reads (encodeBytes content) [] [.bytes content] where
  values _ _ _ _ := Decoder.run_encodeBytes h
  stops := nofun

theorem taggedBytes {tag content : Bytes} (ht : tag.length ≤ 2 ^ 31 - 1)
    (hc : content.length ≤ 2 ^ 31 - 1) :
    Reads (encodeTagged tag (Bencode.encodeBytes content)) [] [.dict [(tag, .bytes content)]] where
  values _ frames items rest := by
    rw [run_encodeTagged ht, Decoder.run_encodeBytes hc, Decoder.supply, Decoder.Progress.resume_more]
    exact Decoder.run_cons ..
  stops := nofun

-- Code that stands in a list is met also where the list is the value of an entry.
theorem taggedList {tag : Bytes} {items : List Bytes} {code : Program} {vs : List Value}
    (ht : tag.length ≤ 2 ^ 31 - 1) (h : Reads items.flatten code vs) :
    Reads (encodeTagged tag (encodeList items)) code [.dict [(tag, .list vs)]] where
  values hc frames read rest := by
    rw [run_encodeTagged ht, encodeList, List.append_assoc, List.cons_append, Decoder.run_cons]
    change Decoder.run ⟨.list [] :: .entry [] tag :: .list read :: frames, .value⟩ _ = _
    rw [h.values hc, List.append_nil, List.singleton_append, Decoder.run_cons]
    change Decoder.run ⟨.dict [(tag, .list vs.reverse.reverse)] :: .list read :: frames, .value⟩ _ = _
    rw [List.reverse_reverse]
    exact Decoder.run_cons ..
  stops op ops hc frames read rest := by
    rw [run_encodeTagged ht, encodeList, List.append_assoc, List.cons_append, Decoder.run_cons]
    exact h.stops op ops hc ..

end Reads

theorem exists_marshal (p : Program) : ∃ bytes, Code.marshal p = .ok bytes :=
  ⟨p.source, rfl⟩

mutual

theorem reads_encode : (e : Expr Program) → e.isWhole → (∀ text ∈ e.texts, text.length ≤ 2 ^ 31 - 1) →
    ∀ item, encode e = .ok item → Reads item e.codes.flatten (value? e).toList
  | .nil, _, _, _, rfl => .encodeBytes (Nat.zero_le _)
  | .str _, _, ht, _, rfl => .encodeBytes (ht _ (List.mem_singleton_self _))
  | .macroName _, _, ht, _, rfl => .taggedBytes (by decide) (ht _ (List.mem_singleton_self _))
  | .lambda code, _, _, _, rfl => by
    rw [Expr.codes, List.flatten_singleton]
    exact .source code
  | .cond test yes no, hw, ht, item, he => by
    simp only [Expr.isWhole, Bool.and_eq_true] at hw
    simp only [Expr.texts, List.forall_mem_append] at ht
    have ⟨a, ha⟩ := exists_encode exists_marshal test hw.left.left
    have ⟨b, hb⟩ := exists_encode exists_marshal yes hw.left.right
    have ⟨c, hc⟩ := exists_encode exists_marshal no hw.right
    have ra := reads_encode test hw.left.left ht.left a ha
    have rb := reads_encode yes hw.left.right ht.right.left b hb
    have rc := reads_encode no hw.right ht.right.right c hc
    rw [encode_cond ha hb hc] at he
    cases he
    rw [Expr.codes, List.flatten_append, List.flatten_append]
    refine .taggedList (by decide) ?_
    simpa using ra.append (rb.append rc)
  | .call callee args, hw, ht, item, he => by
    simp only [Expr.isWhole, Bool.and_eq_true] at hw
    simp only [Expr.texts, List.forall_mem_append] at ht
    have ⟨a, ha⟩ := exists_encode exists_marshal callee hw.left
    have ⟨as, hs⟩ := exists_encodeAll exists_marshal args hw.right
    have ra := reads_encode callee hw.left ht.left a ha
    have rs := reads_encodeAll args hw.right ht.right as hs
    rw [encode_call ha hs] at he
    cases he
    rw [Expr.codes, List.flatten_append]
    exact .taggedList (by decide) (ra.append rs)

theorem reads_encodeAll : (args : List (Expr Program)) → Expr.allWhole args →
    (∀ text ∈ Expr.textsAll args, text.length ≤ 2 ^ 31 - 1) →
    ∀ items, encodeAll args = .ok items →
      Reads items.flatten (Expr.codesAll args).flatten (values args)
  | [], _, _, _, rfl => .nil
  | arg :: args, hw, ht, items, he => by
    simp only [Expr.allWhole, Bool.and_eq_true] at hw
    simp only [Expr.textsAll, List.forall_mem_append] at ht
    have ⟨a, ha⟩ := exists_encode exists_marshal arg hw.left
    have ⟨as, hs⟩ := exists_encodeAll exists_marshal args hw.right
    have ra := reads_encode arg hw.left ht.left a ha
    have rs := reads_encodeAll args hw.right ht.right as hs
    rw [encodeAll_cons ha hs] at he
    cases he
    rw [Expr.codesAll, List.flatten_append]
    exact ra.append rs

end

theorem run_encodeList (items : List Bytes) :
    Decoder.run {} (encodeList items) =
      Decoder.run ⟨[.list []], .value⟩ (items.flatten ++ ['e'.toUInt8]) :=
  Decoder.run_cons ..

theorem Reads.decode_encodeList {items : List Bytes} {vs : List Value}
    (h : Reads items.flatten [] vs) : Bencode.decode (encodeList items) = (.ok (.list vs), []) := by
  rw [Bencode.decode, run_encodeList, h.values rfl, Decoder.run_cons]
  change (Except.ok (Value.list (vs.reverse ++ []).reverse), _) = _
  rw [List.append_nil, List.reverse_reverse]

theorem Reads.decode_encodeList_eq_error {items : List Bytes} {op : Op} {ops : Program}
    {vs : List Value} (h : Reads items.flatten (op :: ops) vs) :
    (Bencode.decode (encodeList items)).1 = .error (.unexpectedByte op.char.toUInt8) := by
  have hf := h.stops op ops rfl [] [] ['e'.toUInt8]
  rw [Bencode.decode, run_encodeList]
  generalize Decoder.run _ _ = r at hf
  rcases r with ⟨p, rest⟩
  cases hf
  rfl

theorem find?_of_flatten_eq_cons {ps : List Program} {op : Op} {ops : Program}
    (h : ps.flatten = op :: ops) : ∃ q, ps.find? (· ≠ []) = some (op :: q) := by
  have ⟨before, q, after, hp, hb, _⟩ := List.flatten_eq_cons_iff.mp h
  refine ⟨q, List.find?_eq_some_iff_append.mpr ⟨by simp, before, after, hp, ?_⟩⟩
  intro p hm
  simp [hb p hm]

theorem decode_encodeArgs_iff_codes (args : List (Expr Program)) (hw : Expr.allWhole args)
    (ht : ∀ text ∈ Expr.textsAll args, text.length ≤ 2 ^ 31 - 1) :
    ∃ data, encodeArgs args = .ok data ∧
      ((∃ v, Bencode.decode data = (.ok v, [])) ↔ ∀ code ∈ Expr.codesAll args, code = []) ∧
      ((∀ code ∈ Expr.codesAll args, code = []) →
        Bencode.decode data = (.ok (.list (values args)), [])) ∧
      ((∃ code ∈ Expr.codesAll args, code ≠ []) →
        ∃ op ops, (Expr.codesAll args).find? (· ≠ []) = some (op :: ops) ∧
          (Bencode.decode data).1 = .error (.unexpectedByte op.char.toUInt8)) := by
  have ⟨items, hi⟩ := exists_encodeAll exists_marshal args hw
  have hr := reads_encodeAll args hw ht items hi
  have hs : (∃ code ∈ Expr.codesAll args, code ≠ []) ↔ ¬∀ code ∈ Expr.codesAll args, code = [] := by
    simp
  refine ⟨encodeList items, encodeArgs_of_encodeAll hi, ?_⟩
  rw [hs, ← List.flatten_eq_nil_iff]
  cases hc : (Expr.codesAll args).flatten
  case nil =>
    rw [hc] at hr
    have hd := hr.decode_encodeList
    exact ⟨iff_of_true ⟨_, hd⟩ rfl, fun _ => hd, fun h => absurd rfl h⟩
  case cons op ops =>
    rw [hc] at hr
    have hd := hr.decode_encodeList_eq_error
    have ⟨q, hq⟩ := find?_of_flatten_eq_cons hc
    refine ⟨iff_of_false ?_ (by simp), by simp, fun _ => ⟨op, q, hq, hd⟩⟩
    rintro ⟨v, hv⟩
    rw [hv] at hd
    cases hd

-- Empty code leaves no trace; of the two that are not empty, the one in the argument of the call is met
-- first.
theorem decode_encodeArgs_iff_codes_nested :
    (∃ data, encodeArgs (C := Program)
        [.lambda [], .cond (.str "a") (.call (.lambda []) [.nil]) (.macroName "b")] = .ok data ∧
      Bencode.decode data = (.ok (.list [.dict [("if", .list [.bytes "a",
        .dict [("call", .list [.bytes []])], .dict [("macro", .bytes "b")]])]]), [])) ∧
    ∃ data, encodeArgs (C := Program)
        [.lambda [], .cond .nil (.call .nil [.lambda [.dec, .put]]) (.lambda [.inc])] = .ok data ∧
      (Bencode.decode data).1 = .error (.unexpectedByte '-'.toUInt8) := by
  constructor
  case left =>
    have ⟨data, he, _, hd, _⟩ := decode_encodeArgs_iff_codes
      [.lambda [], .cond (.str "a") (.call (.lambda []) [.nil]) (.macroName "b")]
      (by decide) (by decide)
    exact ⟨data, he, hd (by decide)⟩
  case right =>
    have ⟨data, he, _, _, hd⟩ := decode_encodeArgs_iff_codes
      [.lambda [], .cond .nil (.call .nil [.lambda [.dec, .put]]) (.lambda [.inc])]
      (by decide) (by decide)
    have ⟨op, ops, hf, hd⟩ := hd ⟨[.dec, .put], by decide, by decide⟩
    cases hf
    exact ⟨data, he, hd⟩

end Wire
end TapeShell
