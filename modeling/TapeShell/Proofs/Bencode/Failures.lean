import TapeShell.Proofs.Bencode.Canonical
import TapeShell.Wire

namespace TapeShell.Bencode

namespace Decoder

variable {d d' : Decoder} {bs cs rest : Bytes} {e : DecodeError}

theorem run_append (d : Decoder) (bs cs : Bytes) :
    d.run (bs ++ cs) = (d.run bs).1.resume ((d.run bs).2 ++ cs) := by
  induction bs generalizing d
  case nil => rfl
  case cons b bs hi =>
    rw [List.cons_append, run_cons, run_cons]
    cases d.step b
    case more => exact hi _
    all_goals rfl

structure FailsAt (d : Decoder) (bs : Bytes) (b : UInt8) (e : DecodeError) (last : Decoder) : Prop where
  before : d.run bs = (.more last, [])
  at_byte : last.step b = .failed e

theorem FailsAt.run {b : UInt8} (h : d.FailsAt bs b e d') (rest : Bytes) :
    d.run (bs ++ b :: rest) = (.failed e, rest) := by
  rw [run_append, h.before, Progress.resume_more, List.nil_append, run_cons, h.at_byte]
  rfl

theorem Reached.run (h : d.Reached bs) (hr : d.run cs = (.more d', rest)) : d'.Reached (bs ++ cs) := by
  induction cs generalizing d bs
  case nil =>
    cases hr
    rwa [List.append_nil]
  case cons b cs hi =>
    have ha := h.accounts_step b
    rw [run_cons] at hr
    cases hs : d.step b <;> rw [hs] at hr ha
    case more =>
      have := hi ha hr
      rwa [List.append_assoc, List.singleton_append] at this
    all_goals cases hr

-- Of the bytes that have been read, a failure is about the last one or about the value that they end with.
def Progress.Refuses : Progress → Bytes → Prop
  | .failed .unexpectedEnd, _ => False
  | .failed (.unexpectedByte b), bs => bs.getLast? = some b
  | .failed (.unexpectedKey u), bs => (∀ content, u ≠ .bytes content) ∧ u.encode <:+ bs
  | _, _ => True

theorem refuses_byte (bs : Bytes) (b : UInt8) :
    (Progress.failed (.unexpectedByte b)).Refuses (bs ++ [b]) :=
  List.getLast?_concat

theorem refuses_supply (frames : List Frame) {v : Value} (h : v.encode <:+ bs) :
    (supply frames v).Refuses bs := by
  cases frames
  case nil => trivial
  case cons f frames =>
    cases f
    case dict entries =>
      cases v
      case bytes => trivial
      all_goals exact ⟨nofun, h⟩
    all_goals trivial

theorem refuses_close (frames : List Frame) :
    (close frames).Refuses (consumedFrames frames ++ ['e'.toUInt8]) := by
  cases frames
  case nil => exact refuses_byte [] _
  case cons f frames =>
    cases f
    case list items =>
      refine refuses_supply frames ⟨consumedFrames frames, ?_⟩
      simp [consumedFrames, Frame.consumed, Value.encode, encodeList]
    case dict entries =>
      refine refuses_supply frames ⟨consumedFrames frames, ?_⟩
      simp [consumedFrames, Frame.consumed, Value.encode]
    case entry => exact refuses_byte ..

theorem refuses_supply_snoc (frames : List Frame) {v : Value} {expecting : Expecting} {b : UInt8}
    (he : v.encode = expecting.consumed ++ [b]) :
    (supply frames v).Refuses (consumedFrames frames ++ expecting.consumed ++ [b]) := by
  refine refuses_supply frames ⟨consumedFrames frames, ?_⟩
  rw [he, List.append_assoc]

theorem Reached.refuses_step (h : d.Reached bs) (b : UInt8) : (d.step b).Refuses (bs ++ [b]) := by
  obtain ⟨frames, expecting⟩ := d
  obtain ⟨rfl, -, hf⟩ := h
  cases expecting
  case value =>
    simp only [step]
    repeat' split
    case isTrue hb =>
      rw [hb, Expecting.consumed, List.append_nil]
      exact refuses_close frames
    case isFalse => exact refuses_byte ..
    all_goals trivial
  case colon =>
    simp only [step]
    split
    case isTrue hb => exact refuses_supply_snoc frames (v := .bytes []) (hb ▸ rfl)
    case isFalse => exact refuses_byte ..
  case content left read =>
    cases left
    case zero =>
      refine refuses_supply_snoc frames (v := .bytes (b :: read).reverse) ?_
      simp [Value.encode, encodeBytes, Expecting.consumed]
    case succ => trivial
  case zeroEnd =>
    simp only [step]
    split
    case isTrue hb => exact refuses_supply_snoc frames (v := .integer 0) (hb ▸ rfl)
    case isFalse => exact refuses_byte ..
  case digits negative n =>
    simp only [step]
    repeat' split
    case isTrue hb =>
      refine refuses_supply_snoc frames (v := .integer (signed negative n)) ?_
      rw [Value.encode, encodeInteger_signed hf, hb]
    case h_1 => trivial
    all_goals exact refuses_byte ..
  case length n =>
    simp only [step]
    repeat' split
    case isTrue | h_1 => trivial
    all_goals exact refuses_byte ..
  case sign =>
    simp only [step]
    repeat' split
    case isFalse => exact refuses_byte ..
    all_goals trivial
  case magnitude =>
    simp only [step]
    split
    case isTrue => trivial
    case isFalse => exact refuses_byte ..

end Decoder

variable {data rest : Bytes}

theorem Decoder.FailsAt.decode {bs : Bytes} {b : UInt8} {e : DecodeError} {last : Decoder}
    (h : Decoder.FailsAt {} bs b e last) (rest : Bytes) :
    Bencode.decode (bs ++ b :: rest) = (.error e, rest) := by
  rw [Bencode.decode, h.run]

end TapeShell.Bencode
