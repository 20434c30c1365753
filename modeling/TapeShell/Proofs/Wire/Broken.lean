import TapeShell.Proofs.Text.Escapes
import TapeShell.Wire

namespace TapeShell

open Bytes Text

namespace Bytes

theorem latin1_eq_ofChars (bs : Bytes) : latin1 bs = ofChars (bs.map Char.ofUInt8) := by
  rw [latin1, ofChars, List.flatMap_map]

def ofLatin1 (bs : Bytes) : Bytes :=
  bs.chars.map Char.toUInt8

theorem toUInt8_ofUInt8 (b : UInt8) : (Char.ofUInt8 b).toUInt8 = b := by
  have hn : (Char.ofUInt8 b).toUInt8.toNat = b.toNat % 256 :=
    congrArg (· % 256) (UInt8.toNat_toUInt32 b)
  have := b.toNat_lt
  exact UInt8.toNat_inj.mp (by omega)

theorem ofLatin1_latin1 (bs : Bytes) : ofLatin1 (latin1 bs) = bs := by
  rw [ofLatin1, latin1_eq_ofChars, chars_ofChars, List.map_map]
  exact List.map_id'' toUInt8_ofUInt8 bs

theorem latin1_inj {bs bs' : Bytes} (h : latin1 bs = latin1 bs') : bs = bs' := by
  rw [← ofLatin1_latin1 bs, h, ofLatin1_latin1]

end Bytes

namespace Fault

variable {printable : Char → Bool}

def resultLabel : Bytes := "broken return value "

theorem messageWith_result (raw : Bytes) (cause : Fault) :
    (result raw cause).messageWith printable =
      resultLabel ++ (quoteWith printable raw.latin1 ++ (": " ++ cause.messageWith printable)) := by
  simp only [messageWith, resultLabel, List.append_assoc]

theorem messageWith_result_inj {raw raw' : Bytes} {cause cause' : Fault}
    (h : (result raw cause).messageWith printable = (result raw' cause').messageWith printable) :
    raw = raw' ∧ cause.messageWith printable = cause'.messageWith printable := by
  rw [messageWith_result, messageWith_result] at h
  have ⟨hraw, htail⟩ := quoteWith_append_inj (List.append_cancel_left h)
  exact ⟨latin1_inj hraw, List.append_cancel_left htail⟩

end Fault

namespace Wire

variable {C : Type}

-- The output that a message about a broken result is about: it stands between the quotes after the label.
def outputOf (message : Bytes) : Bytes :=
  (unescapeFrom 0 (message.drop Fault.resultLabel.length).tail).1.ofLatin1

theorem outputOf_messageWith_result (printable : Char → Bool) (raw : Bytes) (cause : Fault) :
    outputOf ((Fault.result raw cause).messageWith printable) = raw := by
  rw [outputOf, Fault.messageWith_result, List.drop_left, unescapeFrom_quoteWith_append, ofLatin1_latin1]

theorem exists_cause_of_decodeResult {raw : Bytes} {f : Fault}
    (h : (decodeResult raw : Except Fault (Expr C)) = .error f) : ∃ cause, f = .result raw cause := by
  unfold decodeResult at h
  split at h <;> cases h
  case h_2 => exact ⟨.outputAfterResult, rfl⟩
  case h_3 e _ _ => exact ⟨.decoding e, rfl⟩

theorem broken_output_recoverable (C : Type) :
    (∀ printable raw f, (decodeResult raw : Except Fault (Expr C)) = .error f →
      outputOf (f.messageWith printable) = raw) ∧
    (∀ printable raw raw' f f', (decodeResult raw : Except Fault (Expr C)) = .error f →
      (decodeResult raw' : Except Fault (Expr C)) = .error f' →
      f.messageWith printable = f'.messageWith printable → raw = raw') ∧
    ∀ printable raw raw' cause cause',
      (Fault.result raw cause).messageWith printable = (Fault.result raw' cause').messageWith printable →
      raw = raw' ∧ cause.messageWith printable = cause'.messageWith printable := by
  refine ⟨fun printable raw f h => ?read, fun printable raw raw' f f' h h' hm => ?same, ?parts⟩
  case read =>
    obtain ⟨cause, rfl⟩ := exists_cause_of_decodeResult h
    exact outputOf_messageWith_result printable raw cause
  case same =>
    obtain ⟨cause, rfl⟩ := exists_cause_of_decodeResult h
    obtain ⟨cause', rfl⟩ := exists_cause_of_decodeResult h'
    exact (Fault.messageWith_result_inj hm).left
  case parts =>
    intro printable raw raw' cause cause'
    exact Fault.messageWith_result_inj

-- An output, and one that holds what the message about it ends with.
theorem broken_output_recoverable_imitation :
    let printable : Char → Bool := fun c => c ≠ '\u0080'
    let raw : Bytes := ofString "z"
    let raw' : Bytes := ofString "z\": bencode: unexpected character 'z" ++ [0x80, 0xFF, 0x5C, 0x0A]
    let fault (raw : Bytes) : Fault := .result raw (.decoding (.unexpectedByte 'z'.toUInt8))
    (decodeResult raw : Except Fault (Expr Tape.Program)) = .error (fault raw) ∧
    (decodeResult raw' : Except Fault (Expr Tape.Program)) = .error (fault raw') ∧
    (fault raw').messageWith printable =
      ofString "broken return value \"z\\\": bencode: unexpected character 'z\\u0080ÿ\\\\\\n\": " ++
        ofString "bencode: unexpected character 'z'" ∧
    outputOf ((fault raw').messageWith printable) = raw' ∧
    (fault raw).messageWith printable ≠ (fault raw').messageWith printable := by
  intro printable raw raw' fault
  have ⟨hread, hsame, _⟩ := broken_output_recoverable Tape.Program
  have h : (decodeResult raw : Except Fault (Expr Tape.Program)) = .error (fault raw) := rfl
  have h' : (decodeResult raw' : Except Fault (Expr Tape.Program)) = .error (fault raw') := rfl
  refine ⟨h, h', by decide +kernel, hread printable raw' _ h', fun hm => ?_⟩
  exact absurd (hsame printable raw raw' _ _ h h' hm) (by decide)

end Wire
end TapeShell
